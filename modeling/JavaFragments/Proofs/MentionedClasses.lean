import JavaFragments.Proofs.LeafTokens
import JavaFragments.Proofs.WrittenTypes

/-! # The classes that a phrase mentions

`counted` lists the classes of a type that count for the imports, in printed order: each class with
those in its arguments, but of a member type only what stands around it and in its arguments. A
phrase mentions the counted classes of the types written in its tree, and prints a reference for
each of them, in the same order. -/
set_option autoImplicit false

namespace JavaFragments

mutual

def JavaType.counted : JavaType → List ClassType
  | .primitive _ => []
  | .classType t => t :: t.countedInside
  | .memberType member outer => outer.counted ++ member.countedInside
  | .typeVariable _ => []

/-- The counted classes in the arguments. -/
def ClassType.countedInside : ClassType → List ClassType
  | ⟨_, _, _, none, _⟩ => []
  | ⟨_, _, _, some arguments, _⟩ => arguments.counted

def TypeArgument.counted : TypeArgument → List ClassType
  | .type t => t.counted
  | .wildcard => []
  | .wildcardExtends bound => bound.counted
  | .wildcardSuper bound => bound.counted
  | .list first second rest => first.counted ++ second.counted ++ countedArguments rest

def countedArguments : List TypeArgument → List ClassType
  | [] => []
  | argument :: rest => argument.counted ++ countedArguments rest

end

/-- The counted classes of one type after another. -/
def countedIn (types : List JavaType) : List ClassType :=
  types.flatMap JavaType.counted

@[simp] theorem countedIn_nil : countedIn [] = [] := rfl

@[simp] theorem countedIn_cons (t : JavaType) (rest : List JavaType) :
    countedIn (t :: rest) = t.counted ++ countedIn rest := rfl

@[simp] theorem countedIn_append (front back : List JavaType) :
    countedIn (front ++ back) = countedIn front ++ countedIn back :=
  List.flatMap_append

theorem countedIn_flatMap {α : Type} (xs : List α) (types : α → List JavaType) :
    countedIn (xs.flatMap types) = xs.flatMap fun x => countedIn (types x) :=
  List.flatMap_assoc

theorem countedArguments_eq_flatMap (arguments : List TypeArgument) :
    countedArguments arguments = arguments.flatMap TypeArgument.counted := by
  induction arguments with
  | nil => rfl
  | cons argument rest ih => rw [countedArguments, ih, List.flatMap_cons]

/-- The token that stands for a class. -/
def ClassType.reference (env : Environment) (t : ClassType) : Token :=
  .reference t.internalName t.name (some env.currentType)

/-! ## Phrases -/

namespace Phrase

/-- The phrase mentions the classes, and prints a reference for each, in this order. -/
structure Mentions (env : Environment) (classes : List ClassType) (phrase : Phrase) : Prop where
  mentioned_eq : phrase.mentioned = classes
  printed : (classes.map (ClassType.reference env)).Sublist phrase.tokens

variable {env : Environment} {classes classes' : List ClassType} {phrase phrase' : Phrase}

theorem mentions_tokens (ts : List Token) : (ofTokens ts).Mentions env [] :=
  ⟨rfl, List.nil_sublist _⟩

theorem mentions_token (token : Token) : (ofToken token).Mentions env [] :=
  mentions_tokens [token]

theorem mentions_empty : empty.Mentions env [] :=
  mentions_tokens []

theorem Mentions.append (h : phrase.Mentions env classes) (h' : phrase'.Mentions env classes') :
    (phrase ++ phrase').Mentions env (classes ++ classes') := by
  constructor
  · rw [mentioned_append, h.mentioned_eq, h'.mentioned_eq]
  · rw [List.map_append]
    exact h.printed.append h'.printed

/-- Behind a phrase that mentions nothing. -/
theorem Mentions.behind (h' : phrase'.Mentions env classes) (h : phrase.Mentions env []) :
    (phrase ++ phrase').Mentions env classes :=
  h.append h'

theorem Mentions.before (h : phrase.Mentions env classes) (h' : phrase'.Mentions env []) :
    (phrase ++ phrase').Mentions env classes := by
  have hboth := h.append h'
  rwa [List.append_nil] at hboth

theorem Mentions.enclosed (h : phrase.Mentions env classes) (opening closing : Token) :
    (Phrase.enclosed opening closing phrase).Mentions env classes :=
  (h.behind (mentions_token opening)).before (mentions_token closing)

theorem Mentions.bracketedIf (h : phrase.Mentions env classes) (condition : Bool) :
    (Phrase.bracketedIf condition phrase).Mentions env classes := by
  unfold Phrase.bracketedIf
  split
  · exact h.enclosed _ _
  · exact h

theorem mentions_join {α : Type} (separator : Token) {xs : List α} {classes : α → List ClassType}
    {phrase : α → Phrase} (h : ∀ x ∈ xs, (phrase x).Mentions env (classes x)) :
    (join separator (xs.map phrase)).Mentions env (xs.flatMap classes) := by
  induction xs with
  | nil => exact mentions_empty
  | cons x rest ih =>
      have hx := h x List.mem_cons_self
      have hrest := ih fun y hy => h y (List.mem_cons_of_mem _ hy)
      cases rest with
      | nil =>
          rw [List.flatMap_cons, List.flatMap_nil, List.append_nil]
          exact hx
      | cons y rest => exact (hx.before (mentions_token separator)).append hrest

theorem mentions_reference (t : ClassType) :
    (mention t ++ referencePhrase env t.internalName t.name).Mentions env [t] :=
  ⟨rfl, List.Sublist.refl _⟩

end Phrase

open Phrase

/-! ## Types -/

theorem dimensionPhrase_mentions (env : Environment) (dimension : UInt32) :
    (dimensionPhrase dimension).Mentions env [] :=
  mentions_tokens _

mutual

theorem JavaType.phrase_mentions (env : Environment) : (t : JavaType) →
    (t.phrase env).Mentions env t.counted
  | .primitive t => by
      rw [JavaType.counted, JavaType.phrase]
      exact (mentions_token _).append (dimensionPhrase_mentions env t.dimension)
  | .classType t => by
      obtain ⟨rest, hphrase, hrest⟩ := t.phrase_behind_reference env
      rw [JavaType.counted, JavaType.phrase, hphrase, ← append_assoc]
      exact (mentions_reference t).append hrest
  | .memberType member outer => by
      obtain ⟨rest, hphrase, hrest⟩ := member.phrase_behind_reference env
      rw [JavaType.counted, JavaType.phrase, hphrase]
      exact ((outer.phrase_mentions env).before (mentions_token _)).append
        (hrest.behind (mentions_token _))
  | .typeVariable t => by
      rw [JavaType.counted, JavaType.phrase]
      exact (mentions_token _).append (dimensionPhrase_mentions env t.dimension)

/-- What stands behind the reference to a class mentions what is counted in its arguments. -/
theorem ClassType.phrase_behind_reference (env : Environment) : (t : ClassType) →
    ∃ rest : Phrase, t.unmentionedPhrase env = referencePhrase env t.internalName t.name ++ rest ∧
      rest.Mentions env t.countedInside
  | ⟨internalName, _, name, none, dimension⟩ => by
      rw [ClassType.countedInside, ClassType.unmentionedPhrase, append_assoc]
      exact ⟨_, rfl, mentions_empty.append (dimensionPhrase_mentions env dimension)⟩
  | ⟨internalName, _, name, some arguments, dimension⟩ => by
      have harguments := (arguments.phrase_mentions env).enclosed .openAngle .closeAngle
      rw [ClassType.countedInside, ClassType.unmentionedPhrase, append_assoc]
      exact ⟨_, rfl, harguments.before (dimensionPhrase_mentions env dimension)⟩

theorem TypeArgument.phrase_mentions (env : Environment) : (t : TypeArgument) →
    (t.phrase env).Mentions env t.counted
  | .type t => by
      rw [TypeArgument.counted, TypeArgument.phrase]
      exact t.phrase_mentions env
  | .wildcard => by
      rw [TypeArgument.counted, TypeArgument.phrase]
      exact mentions_token _
  | .wildcardExtends bound => by
      rw [TypeArgument.counted, TypeArgument.phrase]
      exact (bound.phrase_mentions env).behind (mentions_tokens _)
  | .wildcardSuper bound => by
      rw [TypeArgument.counted, TypeArgument.phrase]
      exact (bound.phrase_mentions env).behind (mentions_tokens _)
  | .list first second rest => by
      have hall : ∀ argument ∈ first :: second :: rest,
          (argument.phrase env).Mentions env argument.counted := by
        rw [List.forall_mem_cons, List.forall_mem_cons]
        exact ⟨first.phrase_mentions env, second.phrase_mentions env,
          arguments_phrase_mentions env rest⟩
      have hjoin := mentions_join .commaSpace hall
      rw [TypeArgument.counted, TypeArgument.phrase, countedArguments_eq_flatMap,
        argumentPhrases_eq_map, List.append_assoc]
      exact hjoin

theorem arguments_phrase_mentions (env : Environment) : (arguments : List TypeArgument) →
    ∀ argument ∈ arguments, (argument.phrase env).Mentions env argument.counted
  | [] => fun _ h => nomatch h
  | argument :: rest => by
      rw [List.forall_mem_cons]
      exact ⟨argument.phrase_mentions env, arguments_phrase_mentions env rest⟩

end

theorem ClassType.phrase_mentions (env : Environment) (t : ClassType) :
    (t.phrase env).Mentions env (JavaType.classType t).counted := by
  have h := (JavaType.classType t).phrase_mentions env
  rwa [JavaType.phrase] at h

/-! ## Expressions -/

section Expressions
variable {env : Environment}

variable (env) in
/-- The phrase of the expression mentions the classes of its types. -/
def Expression.MentionsTypes (e : Expression) : Prop :=
  (e.phrase env).Mentions env (countedIn e.types)

theorem mentions_unary (operator : UnaryOperator) {classes : List ClassType} {operand : Phrase}
    (h : operand.Mentions env classes) : (unaryPhrase operator operand).Mentions env classes := by
  unfold unaryPhrase
  split
  · exact h.before (mentions_token _)
  · exact (h.bracketedIf _).behind (mentions_token _)

theorem mentions_lambdaParameters (names : List String) :
    (lambdaParameters names).Mentions env [] := by
  unfold lambdaParameters
  split
  · exact mentions_token _
  · exact (mentions_token _).enclosed _ _

theorem mentions_receiver {object : Option Expression}
    (h : ∀ part ∈ object.toList, part.MentionsTypes env) :
    (receiverPhrase env object).Mentions env (countedIn (optionalTypes object)) := by
  cases object with
  | none => exact mentions_empty
  | some object => exact ((h object (by simp)).bracketedIf _).before (mentions_token _)

theorem mentions_arguments {arguments : List Expression}
    (h : ∀ part ∈ arguments, part.MentionsTypes env) :
    (argumentsPhrase (expressionPhrases env arguments)).Mentions env
      (countedIn (expressionTypes arguments)) := by
  rw [expressionTypes_eq_flatMap, countedIn_flatMap, expressionPhrases_eq_map]
  exact (mentions_join _ h).enclosed _ _

end Expressions

theorem Expression.phrase_mentions (env : Environment) (e : Expression) :
    e.MentionsTypes env := by
  induction e using Expression.induction_on_parts with
  | step e h =>
  cases e with
  | boolean value => cases value <;> exact mentions_token _
  | nullLiteral | thisReference | integer | long | double | character | text | named =>
      exact mentions_token _
  | field object name => exact (mentions_receiver h).before (mentions_token _)
  | call object name arguments =>
      simp only [Expression.parts, List.forall_mem_append] at h
      rw [MentionsTypes, Expression.types, countedIn_append, Expression.phrase]
      exact ((mentions_receiver h.1).before (mentions_token _)).append (mentions_arguments h.2)
  | new type arguments =>
      rw [MentionsTypes, Expression.types, countedIn_cons, Expression.phrase]
      exact ((type.phrase_mentions env).behind (mentions_tokens _)).append (mentions_arguments h)
  | binary operator left right =>
      have hleft := (h left (by simp [Expression.parts])).bracketedIf left.isCompound
      have hright := (h right (by simp [Expression.parts])).bracketedIf right.isCompound
      rw [MentionsTypes, Expression.types, countedIn_append, Expression.phrase]
      exact (hleft.before (mentions_tokens _)).append hright
  | unary operator operand =>
      exact mentions_unary operator ((h operand List.mem_cons_self).bracketedIf _)
  | assignment operator target value =>
      have htarget := h target (by simp [Expression.parts])
      have hvalue := h value (by simp [Expression.parts])
      rw [MentionsTypes, Expression.types, countedIn_append, Expression.phrase]
      exact (htarget.before (mentions_token _)).append hvalue
  | typeCast type operand =>
      rw [MentionsTypes, Expression.types, countedIn_cons, Expression.phrase]
      exact ((type.phrase_mentions env).enclosed _ _).append
        ((h operand List.mem_cons_self).bracketedIf _)
  | instanceOf operand type =>
      have hoperand := (h operand List.mem_cons_self).bracketedIf operand.isCompound
      rw [MentionsTypes, Expression.types, countedIn_append, countedIn_cons, countedIn_nil,
        List.append_nil, Expression.phrase]
      exact (hoperand.before (mentions_tokens _)).append (type.phrase_mentions env)
  | conditional condition whenTrue whenFalse =>
      have hcondition := (h condition (by simp [Expression.parts])).bracketedIf condition.isCompound
      have htrue := (h whenTrue (by simp [Expression.parts])).bracketedIf whenTrue.isCompound
      have hfalse := (h whenFalse (by simp [Expression.parts])).bracketedIf whenFalse.isCompound
      rw [MentionsTypes, Expression.types, countedIn_append, countedIn_append, Expression.phrase]
      exact (((hcondition.before (mentions_token _)).append htrue).before
        (mentions_token _)).append hfalse
  | arrayAccess array index =>
      have harray := (h array (by simp [Expression.parts])).bracketedIf
        (array.isCompound || array.isUnary || array.isNew)
      have hindex := h index (by simp [Expression.parts])
      rw [MentionsTypes, Expression.types, countedIn_append, Expression.phrase]
      exact harray.append (hindex.enclosed _ _)
  | typeReference type =>
      rw [MentionsTypes, Expression.types, countedIn_cons, countedIn_nil, List.append_nil]
      exact type.phrase_mentions env
  | lambda parameters body =>
      exact (h body List.mem_cons_self).behind
        ((mentions_lambdaParameters parameters).append (mentions_token _))

/-! ## Heads -/

section Heads
variable (env : Environment)

variable {env} in
theorem mentions_parametersHead {classes : List ClassType} {phrase : Phrase} (words : List String)
    (h : phrase.Mentions env classes) :
    (.ofTokens (headWords words) ++ .parameters phrase : Phrase).Mentions env classes :=
  (h.enclosed _ _).behind (mentions_tokens _)

theorem mentions_guardHead (words : List String) (condition : Expression) :
    (guardHead env words condition).Mentions env (countedIn condition.types) :=
  mentions_parametersHead words (condition.phrase_mentions env)

variable {env} in
theorem mentions_simpleStatement {classes : List ClassType} {phrase : Phrase}
    (h : phrase.Mentions env classes) : (simpleStatement phrase).Mentions env classes :=
  (h.before (mentions_token _)).enclosed _ _

theorem mentions_optional (e : Option Expression) :
    Mentions env (countedIn (optionalTypes e)) (match e with
      | none => Phrase.empty
      | some e => e.phrase env) := by
  cases e with
  | none => exact mentions_empty
  | some e => exact e.phrase_mentions env

theorem mentions_jump (word : String) (label : Option String) :
    (jumpPhrase word label).Mentions env [] := by
  cases label with
  | none => exact mentions_tokens _
  | some label => exact mentions_tokens _

theorem mentions_comment (text : String) : (commentPhrase text).Mentions env [] := by
  have hlines : (Phrase.join (.newLine 1)
      ((commentLines text).map fun line => .ofToken (.text line))).Mentions env
        ((commentLines text).flatMap fun _ => []) :=
    mentions_join _ fun line _ => mentions_token _
  have hnone : ((commentLines text).flatMap fun _ => ([] : List ClassType)) = [] := by simp
  rw [hnone] at hlines
  exact hlines.enclosed _ _

theorem mentions_assertion (condition : Expression) (message : Option Expression) :
    (assertionPhrase env condition message).Mentions env
      (countedIn (condition.types ++ optionalTypes message)) := by
  have hcondition := (condition.phrase_mentions env).behind
    (mentions_tokens [.keyword "assert", .space])
  rw [countedIn_append]
  cases message with
  | none => exact hcondition.append mentions_empty
  | some e => exact hcondition.append ((e.phrase_mentions env).behind (mentions_token _))

theorem mentions_return (e : Expression) (lineNumber : Option UInt32) :
    (returnPhrase env e lineNumber).Mentions env (countedIn e.types) :=
  (e.phrase_mentions env).behind ((mentions_tokens _).append (mentions_tokens _))

theorem mentions_declarator (d : Declarator) :
    (LocalVariableDeclaration.declaratorPhrase env d).Mentions env (countedIn d.types) := by
  have hname : (Phrase.ofToken (.text d.name) ++ dimensionPhrase d.dimension).Mentions env [] :=
    (mentions_token _).append (dimensionPhrase_mentions env d.dimension)
  rw [LocalVariableDeclaration.declaratorPhrase, Declarator.types]
  cases d.initializer with
  | none => exact hname.append mentions_empty
  | some e => exact hname.append ((e.phrase_mentions env).behind (mentions_token _))

theorem mentions_declaration (d : LocalVariableDeclaration) :
    (d.phrase env).Mentions env (countedIn d.types) := by
  have hfinal : (if d.isFinal then Phrase.ofTokens [.keyword "final", .space]
      else .empty).Mentions env [] := by
    split
    · exact mentions_tokens _
    · exact mentions_empty
  have htype := ((d.type.phrase_mentions env).behind hfinal).before (mentions_token .space)
  rw [LocalVariableDeclaration.types, countedIn_cons, countedIn_flatMap]
  exact htype.append (mentions_join _ fun declarator _ => mentions_declarator env declarator)

theorem mentions_forPart (e : Option Expression) :
    (forPart env e).Mentions env (countedIn (optionalTypes e)) := by
  cases e with
  | none => exact mentions_token _
  | some e => exact (e.phrase_mentions env).behind (mentions_token _)

theorem mentions_forHead (declaration : Option LocalVariableDeclaration)
    (init condition update : Option Expression) :
    (forHead env declaration init condition update).Mentions env
      (countedIn (declaration.toList.flatMap LocalVariableDeclaration.types ++
        optionalTypes init ++ optionalTypes condition ++ optionalTypes update)) := by
  rw [countedIn_append, countedIn_append, countedIn_append]
  refine mentions_parametersHead _ (((Mentions.append ?_ (mentions_optional env init)).append
    (mentions_forPart env condition)).append (mentions_forPart env update))
  cases declaration with
  | none => exact mentions_empty
  | some d =>
      rw [Option.toList_some, List.flatMap_singleton]
      exact mentions_declaration env d

theorem mentions_forEachHead (type : JavaType) (name : String) (e : Expression) :
    (forEachHead env type name e).Mentions env (countedIn (type :: e.types)) := by
  rw [countedIn_cons]
  exact mentions_parametersHead _ (((type.phrase_mentions env).before (mentions_tokens _)).append
    (e.phrase_mentions env))

theorem mentions_switchLabel (label : SwitchLabel) :
    (label.phrase env).Mentions env (countedIn label.types) := by
  cases label with
  | default => exact mentions_tokens _
  | expression e =>
      exact ((e.phrase_mentions env).behind (mentions_tokens _)).before (mentions_token _)

theorem mentions_resource (r : Resource) :
    (r.phrase env).Mentions env (countedIn r.types) := by
  rw [Resource.types, countedIn_cons]
  exact (((r.type.phrase_mentions env).behind (mentions_tokens _)).before
    (mentions_tokens _)).append (r.expression.phrase_mentions env)

theorem mentions_resourcesHead (resources : List Resource) :
    (resourcesHead env resources).Mentions env
      (countedIn (resources.flatMap Resource.types)) := by
  rw [countedIn_flatMap]
  exact ((mentions_join _ fun resource _ => mentions_resource env resource).enclosed _ _).behind
    (mentions_tokens _)

theorem mentions_catchHead (type : ClassType) (otherTypes : List ClassType) (name : String)
    (lineNumber : Option UInt32) :
    (catchHead env type otherTypes name lineNumber).Mentions env
      (countedIn ((type :: otherTypes).map .classType)) := by
  have htypes : (Phrase.join .verticalLine
      ((type :: otherTypes).map (ClassType.phrase env))).Mentions env
        ((type :: otherTypes).flatMap fun t => (JavaType.classType t).counted) :=
    mentions_join _ fun t _ => t.phrase_mentions env
  have hcounted : countedIn ((type :: otherTypes).map .classType) =
      (type :: otherTypes).flatMap fun t => (JavaType.classType t).counted :=
    List.flatMap_map ..
  rw [hcounted]
  exact ((htypes.behind (mentions_tokens _)).before (mentions_tokens _)).before (mentions_tokens _)

end Heads

end JavaFragments
