import JavaFragments.Proofs.Balance
import JavaFragments.Proofs.ExpressionTokens
import JavaFragments.Proofs.TokenNesting

/-! # Fragments are self-contained

The tokens of each fragment nest: no inline block and no marker reaches from one fragment into
another. The head of a loop gets a semicolon and the head of a clause gets empty braces only behind
the brackets that they close. -/
set_option autoImplicit false

namespace JavaFragments

/-! ## Phrases -/

def Phrase.IsNested (phrase : Phrase) : Prop :=
  Nested phrase.tokens

theorem Token.standsAlone_of_isWord {token : Token} (h : token.isWord = true) :
    token.standsAlone = true := by
  cases token with
  | keyword | text | reference => rfl
  | _ => cases h

theorem Spoken.nested {ts : List Token} (h : Spoken ts) : Nested ts := by
  induction h with
  | nil => exact .nil
  | word h _ ih => exact .alone (Token.standsAlone_of_isWord h) ih
  | parameters _ _ ihInside ihRest => exact .enclosed rfl ihInside ihRest

section Phrases
variable {phrase front back : Phrase}

theorem Phrase.IsSpoken.isNested (h : phrase.IsSpoken) : phrase.IsNested :=
  Spoken.nested h

theorem isNested_tokens {ts : List Token} (h : ts.all Token.standsAlone = true) :
    (Phrase.ofTokens ts).IsNested :=
  .ofAlone h

theorem isNested_token {token : Token} (h : token.standsAlone = true) :
    (Phrase.ofToken token).IsNested :=
  .alone h .nil

theorem Phrase.IsNested.append (hfront : front.IsNested) (hback : back.IsNested) :
    (front ++ back).IsNested :=
  Nested.append hfront hback

theorem Phrase.IsNested.enclosed (h : phrase.IsNested) {opening closing : Token}
    (hclosing : opening.closing? = some closing) :
    (Phrase.enclosed opening closing phrase).IsNested :=
  Nested.enclosed hclosing h .nil

theorem Phrase.IsNested.parameters (h : phrase.IsNested) : (Phrase.parameters phrase).IsNested :=
  h.enclosed rfl

theorem isNested_join {separator : Token} (hseparator : separator.standsAlone = true)
    {phrases : List Phrase} (h : ∀ phrase ∈ phrases, phrase.IsNested) :
    (Phrase.join separator phrases).IsNested :=
  Phrase.join_induction .nil .append (isNested_token hseparator) h

end Phrases

/-! ## Heads -/

section Heads
variable (env : Environment)

theorem Expression.isNested (e : Expression) : (e.phrase env).IsNested :=
  (e.isSpoken env).isNested

theorem JavaType.isNested (t : JavaType) : (t.phrase env).IsNested :=
  (t.isSpoken env).isNested

theorem ClassType.isNested (t : ClassType) : (t.phrase env).IsNested :=
  (t.isSpoken_unmentioned env).isNested

theorem isNested_headWords (words : List String) :
    (Phrase.ofTokens (headWords words)).IsNested := by
  refine isNested_tokens (List.all_eq_true.2 fun token htoken => ?_)
  obtain ⟨word, -, htoken⟩ := List.mem_flatMap.1 htoken
  rcases List.mem_pair.1 htoken with rfl | rfl
  · rfl
  · rfl

theorem isNested_guardHead (words : List String) (condition : Expression) :
    (guardHead env words condition).IsNested :=
  (isNested_headWords words).append (condition.isNested env).parameters

theorem isNested_simpleStatement {phrase : Phrase} (h : phrase.IsNested) :
    (simpleStatement phrase).IsNested :=
  (h.append (isNested_token rfl)).enclosed rfl

theorem isNested_jump (word : String) (label : Option String) :
    (jumpPhrase word label).IsNested := by
  cases label <;> exact isNested_tokens rfl

theorem isNested_comment (text : String) : (commentPhrase text).IsNested := by
  refine (isNested_join rfl ?_).enclosed rfl
  rw [List.forall_mem_map]
  exact fun line _ => isNested_token rfl

theorem isNested_assertion (condition : Expression) (message : Option Expression) :
    (assertionPhrase env condition message).IsNested := by
  have hword : (Phrase.ofTokens [.keyword "assert", .space]).IsNested := isNested_tokens rfl
  have hcondition := hword.append (condition.isNested env)
  cases message with
  | none => exact hcondition.append .nil
  | some e => exact hcondition.append ((isNested_token rfl).append (e.isNested env))

theorem isNested_lineNumber (lineNumber : Option UInt32) :
    (Phrase.ofTokens (match lineNumber with
      | none => []
      | some line => [.lineNumber line])).IsNested := by
  cases lineNumber <;> exact isNested_tokens rfl

theorem isNested_return (e : Expression) (lineNumber : Option UInt32) :
    (returnPhrase env e lineNumber).IsNested :=
  ((isNested_lineNumber lineNumber).append (isNested_tokens rfl)).append (e.isNested env)

theorem isNested_localVariables (d : LocalVariableDeclaration) : (d.phrase env).IsNested := by
  have hfinal :
      (if d.isFinal then Phrase.ofTokens [.keyword "final", .space] else .empty).IsNested := by
    split
    · exact isNested_tokens rfl
    · exact Nested.nil
  refine ((hfinal.append (d.type.isNested env)).append (isNested_token rfl)).append
    (isNested_join rfl ?_)
  rw [List.forall_mem_map]
  intro declarator _
  have hname : (Phrase.ofToken (.text declarator.name)).IsNested := isNested_token rfl
  have hvariable := hname.append (isSpoken_dimension declarator.dimension).isNested
  unfold LocalVariableDeclaration.declaratorPhrase
  cases declarator.initializer with
  | none => exact hvariable.append .nil
  | some e => exact hvariable.append ((isNested_token rfl).append (e.isNested env))

theorem isNested_forPart (e : Option Expression) : (forPart env e).IsNested := by
  cases e with
  | none => exact isNested_token rfl
  | some e => exact (isNested_token rfl).append (e.isNested env)

theorem isNested_forHead (declaration : Option LocalVariableDeclaration)
    (init condition update : Option Expression) :
    (forHead env declaration init condition update).IsNested := by
  refine (isNested_headWords ["for"]).append (Phrase.IsNested.parameters ?_)
  refine (Phrase.IsNested.append ?_ (isNested_forPart env condition)).append
    (isNested_forPart env update)
  refine Phrase.IsNested.append ?_ ?_
  · cases declaration with
    | none => exact Nested.nil
    | some d => exact isNested_localVariables env d
  · cases init with
    | none => exact Nested.nil
    | some e => exact e.isNested env

theorem isNested_forEachHead (type : JavaType) (name : String) (e : Expression) :
    (forEachHead env type name e).IsNested :=
  (isNested_headWords ["for"]).append
    (((type.isNested env).append (isNested_tokens rfl)).append (e.isNested env)).parameters

theorem isNested_switchLabel (label : SwitchLabel) : (label.phrase env).IsNested := by
  cases label with
  | default => exact isNested_tokens rfl
  | expression e =>
      exact ((isNested_tokens rfl).append (e.isNested env)).append (isNested_token rfl)

theorem isNested_resource (r : Resource) : (r.phrase env).IsNested :=
  (((isNested_lineNumber r.lineNumber).append (r.type.isNested env)).append
    (isNested_tokens rfl)).append (r.expression.isNested env)

theorem isNested_resourcesHead (resources : List Resource) :
    (resourcesHead env resources).IsNested := by
  have hresources : ∀ phrase ∈ resources.map (Resource.phrase env), phrase.IsNested := by
    rw [List.forall_mem_map]
    exact fun r _ => isNested_resource env r
  refine Phrase.IsNested.append ?_ ((isNested_join rfl hresources).enclosed rfl)
  split <;> exact isNested_tokens rfl

theorem isNested_catchHead (type : ClassType) (otherTypes : List ClassType) (name : String)
    (lineNumber : Option UInt32) :
    (catchHead env type otherTypes name lineNumber).IsNested := by
  have htypes : ∀ phrase ∈ (type :: otherTypes).map (ClassType.phrase env), phrase.IsNested := by
    rw [List.forall_mem_map]
    exact fun t _ => t.isNested env
  exact (((isNested_tokens rfl).append (isNested_join rfl htypes)).append
    (isNested_tokens rfl)).append (isNested_lineNumber lineNumber)

end Heads

/-! ## Layouts -/

theorem Head.isNested (env : Environment) : (head : Head) → (head.phrase env).IsNested
  | .guard _ condition => isNested_guardHead env _ condition
  | .loopEnd condition => (isNested_guardHead env ["while"] condition).append (isNested_token rfl)
  | .emptySynchronized monitor =>
      (isNested_guardHead env ["synchronized"] monitor).append (isNested_tokens rfl)
  | .assertion condition message =>
      isNested_simpleStatement (isNested_assertion env condition message)
  | .jump _ target => isNested_jump _ target
  | .comment text => isNested_comment text
  | .expression e => isNested_simpleStatement (e.isNested env)
  | .lambda e => e.isNested env
  | .variables declaration => isNested_simpleStatement (isNested_localVariables env declaration)
  | .returnVoid => isNested_tokens rfl
  | .returnValue e lineNumber => isNested_simpleStatement (isNested_return env e lineNumber)
  | .throwing e => isNested_simpleStatement ((isNested_tokens rfl).append (e.isNested env))
  | .label _ => isNested_tokens rfl
  | .labelOf _ => (isNested_tokens rfl).append (isNested_token rfl)
  | .switchLabel entry => isNested_switchLabel env entry
  | .semicolon => isNested_token rfl

theorem LoopHead.isNested (env : Environment) : (head : LoopHead) → (head.phrase env).IsNested
  | .whileLoop condition => isNested_guardHead env _ condition
  | .forLoop declaration init condition update =>
      isNested_forHead env declaration init condition update
  | .forEach type name e => isNested_forEachHead env type name e

theorem ClauseHead.isNested (env : Environment) :
    (head : ClauseHead) → (head.phrase env).IsNested
  | .otherwise => isNested_token rfl
  | .otherwiseIf condition => isNested_guardHead env _ condition
  | .catching type otherTypes name lineNumber =>
      isNested_catchHead env type otherTypes name lineNumber
  | .finally => isNested_token rfl

/-- No bracket or marker of the fragment reaches out of it. -/
def Fragment.IsSelfContained : Fragment → Prop
  | .tokens ts => Nested ts
  | _ => True

/-- A run of fragments that are self-contained. -/
def AllSelfContained (run : List Fragment) : Prop :=
  ∀ fragment ∈ run, fragment.IsSelfContained

/-- A printer of declarations whose fragments are self-contained. -/
def DeclarationPrinter.SelfContained (printer : DeclarationPrinter) : Prop :=
  ∀ declaration env, AllSelfContained (printer declaration env)

section Runs
variable {head : Phrase} {front back : List Fragment}

theorem allSelfContained_nil : AllSelfContained [] :=
  fun _ h => nomatch h

theorem Phrase.IsNested.allSelfContained (h : head.IsNested) :
    AllSelfContained [.tokens head.tokens] :=
  List.forall_mem_singleton.2 h

theorem Phrase.IsNested.closed (h : head.IsNested) {closing : List Token}
    (hclosing : closing.all Token.standsAlone = true) :
    AllSelfContained [.tokens (head.tokens ++ closing)] :=
  (h.append (isNested_tokens hclosing)).allSelfContained

theorem AllSelfContained.append (hfront : AllSelfContained front)
    (hback : AllSelfContained back) : AllSelfContained (front ++ back) :=
  List.forall_mem_append.2 ⟨hfront, hback⟩

theorem AllSelfContained.start (h : AllSelfContained back) (kind : BlockKind) (group : Group) :
    AllSelfContained (.startBlock kind group :: back) :=
  List.forall_mem_cons.2 ⟨trivial, h⟩

theorem AllSelfContained.behind (h : AllSelfContained back) (hhead : head.IsNested) :
    AllSelfContained (.tokens head.tokens :: back) :=
  List.forall_mem_cons.2 ⟨hhead, h⟩

theorem AllSelfContained.bracketed (hfront : AllSelfContained front)
    (hback : AllSelfContained back) (kind : BlockKind) (group : Group) :
    AllSelfContained (bracketed kind group front back) := by
  have hend : (Fragment.endBlock kind group).IsSelfContained := trivial
  exact (hfront.append (List.forall_mem_cons.2 ⟨hend, hback⟩)).start kind group

end Runs

/-- All that a layout yields is self-contained, also where it fails. -/
theorem Layout.Yields.selfContained {env : Environment} {printer : DeclarationPrinter}
    (hprinter : printer.SelfContained) {scope : Scope} {layout : Layout scope}
    {outer : Option Group} {low high : Group} {run : List Fragment} {mentioned : List ClassType}
    {failure : Option FragmentationError}
    (h : layout.Yields env printer.writer outer low run mentioned high failure) :
    AllSelfContained run := by
  induction h with
  | nothing | reported | done | failedLoop | noResources => exact allSelfContained_nil
  | said head => exact (head.isNested env).allSelfContained
  | spacer => exact List.forall_mem_singleton.2 trivial
  | declared declaration hrun =>
      rw [printer.run_eq hrun]
      exact (hprinter declaration env).append (isNested_token rfl).allSelfContained
  | part _ ih | stopped _ ih | branch _ ih => exact ih
  | both _ _ ihFirst ihSecond => exact ihFirst.append ihSecond
  | @emptyLoop head => exact (head.isNested env).closed rfl
  | @loop head _ _ _ _ _ _ _ ih =>
      exact (ih.bracketed allSelfContained_nil _ _).behind (head.isNested env)
  | block _ _ ihBody ihRest => exact ihBody.bracketed ihRest _ _
  | failedBlock _ ih => exact ih.start _ _
  | attempt _ _ _ ihBody ihRest =>
      exact (ihBody.bracketed ihRest _ _).behind (isNested_resourcesHead env _)
  | emptyAttempt => exact (isNested_resourcesHead env _).closed rfl
  | failedAttempt _ ih => exact (ih.start _ _).behind (isNested_resourcesHead env _)
  | @clause head _ _ _ _ _ _ _ _ _ _ _ _ _ _ ihBody ihRest =>
      exact (ihBody.bracketed ihRest _ _).behind (head.isNested env)
  | @emptyClause head => exact (head.isNested env).closed rfl
  | @failedClause head _ _ _ _ _ _ _ _ _ ih => exact (ih.start _ _).behind (head.isNested env)

theorem declarationHead_selfContained : declarationHead.SelfContained := by
  intro declaration env
  rw [declarationHead, AllSelfContained, List.forall_mem_singleton]
  have hmodifiers : Nested (headWords declaration.modifiers.keywords) :=
    isNested_headWords declaration.modifiers.keywords
  exact hmodifiers.append (.ofAlone rfl)

/-- In each fragment of a method body the inline blocks and the markers nest. -/
theorem tokens_nested_in_fragments {body : Statement} {env : Environment}
    {result : FragmentedBody} (h : fragmentBody body env = .ok result) :
    ∀ ts, Fragment.tokens ts ∈ result.fragments → Nested ts := by
  intro ts hts
  obtain ⟨run, mentioned, hyields, hrun, -⟩ :=
    (Session.start env declarationHead).fragment_yields declarationHead.writer_appends body
  rw [(fragmentBody_ok h).2, hrun] at hts
  exact hyields.selfContained declarationHead_selfContained _ hts

/-- A loop whose condition holds calls inside a call and whose body is a comment, and a `try` whose
resources are printed anew since it prints nothing else. -/
theorem tokens_nested_in_loop_and_retracted_clause :
    let call := Expression.call none "check"
      [.call (some .thisReference) "next" [.call none "now" []], .nullLiteral]
    let body := Statement.sequence [.whileLoop call (some (.comment "wait")),
      .tryCatch (some [⟨.ofInternalName "Lock", "lock", call, some 7⟩]) (.sequence []) [] none]
    let callTokens : List Token :=
      [.text "check", .startBlock .parameters, .keyword "this", .dot, .text "next",
        .startBlock .parameters, .text "now", .startBlock .parameters, .endBlock .parameters,
        .endBlock .parameters, .commaSpace, .keyword "null", .endBlock .parameters]
    let loopHeader : List Token :=
      [.keyword "while", .space, .startBlock .parameters] ++ callTokens ++ [.endBlock .parameters]
    let lostClause : List Token :=
      [.keyword "try", .space, .startBlock .resources, .lineNumber 7,
          .reference "Lock" "Lock" (some "Main"), .space, .text "lock", .spaceEqualSpace] ++
        callTokens ++ [.endBlock .resources, .space, .emptyBraces]
    ∃ result, fragmentBody body ⟨"Main"⟩ = .ok result ∧
      (.tokens loopHeader ∈ result.fragments ∧ Nested loopHeader) ∧
      (.tokens lostClause ∈ result.fragments ∧ Nested lostClause) := by
  intro call body callTokens loopHeader lostClause
  obtain ⟨result, h, hfragments⟩ : ∃ result, fragmentBody body ⟨"Main"⟩ = .ok result ∧
      result.fragments = [.tokens loopHeader, .startBlock .singleStatement 0,
        .tokens [.startMarker .comment, .text "wait", .endMarker .comment],
        .endBlock .singleStatement 0, .spacer .betweenStatements, .tokens lostClause] :=
    ⟨_, rfl, rfl⟩
  have hall := tokens_nested_in_fragments h
  have hloop : Fragment.tokens loopHeader ∈ result.fragments := by
    rw [hfragments]
    exact List.mem_cons_self
  have hlost : Fragment.tokens lostClause ∈ result.fragments := by
    rw [hfragments]
    exact List.mem_append_right [_, _, _, _, _] (List.mem_singleton.2 rfl)
  exact ⟨result, h, ⟨hloop, hall _ hloop⟩, hlost, hall _ hlost⟩

end JavaFragments
