import JavaFragments.Proofs.Leaves
import JavaFragments.Proofs.Yields

/-! # What layouts hold

`contents` reads something off a layout in printed order, given how it is read off the phrases and
the statements in the layout. If each phrase carries what is read off it, then so does everything
that a layout yields: `carries_contents` goes through loops that write their body apart, clauses
that shrink to their head and the branches of an `if`. -/
set_option autoImplicit false

namespace JavaFragments

/-! ## Tokens of runs -/

@[simp] theorem tokensIn_append (front back : List Fragment) :
    tokensIn (front ++ back) = tokensIn front ++ tokensIn back := by
  simp [tokensIn]

@[simp] theorem tokensIn_nil : tokensIn [] = [] := rfl

@[simp] theorem tokensIn_tokens (ts : List Token) (rest : List Fragment) :
    tokensIn (.tokens ts :: rest) = ts ++ tokensIn rest := rfl

@[simp] theorem tokensIn_startBlock (kind : BlockKind) (group : Group) (rest : List Fragment) :
    tokensIn (.startBlock kind group :: rest) = tokensIn rest := rfl

@[simp] theorem tokensIn_endBlock (kind : BlockKind) (group : Group) (rest : List Fragment) :
    tokensIn (.endBlock kind group :: rest) = tokensIn rest := rfl

@[simp] theorem tokensIn_spacer (kind : Spacer) (rest : List Fragment) :
    tokensIn (.spacer kind :: rest) = tokensIn rest := rfl

@[simp] theorem tokensIn_bracketed (kind : BlockKind) (group : Group)
    (inner rest : List Fragment) :
    tokensIn (bracketed kind group inner rest) = tokensIn inner ++ tokensIn rest := by
  simp [bracketed]

/-! ## Contents -/

/-- What is read off the phrases and the statements of a layout. -/
structure Contents (α : Type) where
  head : Head → List α
  loopHead : LoopHead → List α
  clauseHead : ClauseHead → List α
  resources : List Resource → List α
  declaration : TypeDeclaration → List α
  statement : Statement → List α

section Reading
variable {α : Type}

namespace Layout

@[simp] def contents (c : Contents α) : {scope : Scope} → Layout scope → List α
  | _, .nothing | _, .spacer _ | _, .reported _ | _, .done => []
  | _, .said head => c.head head
  | _, .declared declaration => c.declaration declaration
  | _, .part s => c.statement s
  | _, .both first second => first.contents c ++ second.contents c
  | _, .loop head body => c.loopHead head ++ body.contents c
  | _, .block _ body rest => body.contents c ++ rest.contents c
  | _, .attempt resources body rest =>
      c.resources resources ++ c.statement body ++ rest.contents c
  | _, .clause head body rest => c.clauseHead head ++ body.contents c ++ rest.contents c
  | _, .branch s => c.statement s

variable (c : Contents α)

theorem contents_spaced (kind : Spacer) (layouts : List (Layout .own)) :
    (spaced kind layouts).contents c = layouts.flatMap (contents c) := by
  induction layouts with
  | nil => rfl
  | cons first rest ih =>
      cases rest with
      | nil => simp [spaced]
      | cons second rest =>
          simp only [spaced_cons, contents, ih, List.nil_append, List.flatMap_cons]

theorem contents_body (b : Option Statement) :
    (body b).contents c = b.toList.flatMap c.statement := by
  cases b <;> simp [body]

variable {c} in
theorem contents_clauses (hfinally : c.clauseHead .finally = []) {clause : CatchClause → List α}
    (hclause : ∀ entry : CatchClause, clause entry =
      c.clauseHead (.catching entry.type entry.otherTypes entry.name entry.lineNumber) ++
        c.statement entry.body)
    (catchClauses : List CatchClause) (finallyBody : Option Statement) :
    (clauses finallyBody catchClauses).contents c =
      catchClauses.flatMap clause ++ finallyBody.toList.flatMap c.statement := by
  induction catchClauses with
  | nil => cases finallyBody <;> simp [clauses, hfinally]
  | cons entry rest ih => simp [clauses, ih, hclause]

/-- A body that is left out holds nothing. -/
theorem contents_guarded (hsemicolon : c.head .semicolon = [])
    (hempty : c.statement (.sequence []) = []) (b : Option Statement) :
    (guarded b).contents c = b.toList.flatMap c.statement := by
  cases b with
  | none => simp [guarded, hsemicolon]
  | some b =>
      rw [guarded]
      split
      · rename_i hcount
        rw [Statement.count_eq_zero hcount]
        simp [hsemicolon, hempty]
      · simp
      · simp

end Layout

/-- What is read off a statement is what is read off its layout. -/
structure Contents.Agrees (c : Contents α) : Prop where
  statement : ∀ s : Statement, s.layout.contents c = c.statement s
  semicolon : c.head .semicolon = []
  otherwise : c.clauseHead .otherwise = []
  otherwiseIf : ∀ condition, c.clauseHead (.otherwiseIf condition) = c.head (.guard "if" condition)

namespace Contents.Agrees
variable {c : Contents α}

theorem emptySequence (h : c.Agrees) : c.statement (.sequence []) = [] :=
  (h.statement (.sequence [])).symm

/-- A branch holds what the statement holds for itself. -/
theorem branch (h : c.Agrees) (s : Statement) : s.branchLayout.contents c = c.statement s := by
  cases s using Statement.branchLayout_cases with
  | ifThen condition body =>
      rw [← h.statement]
      simp [Statement.branchLayout, Statement.layout, h.otherwiseIf, Layout.contents_body,
        Layout.contents_guarded c h.semicolon h.emptySequence]
  | ifElse condition whenTrue whenFalse =>
      rw [← h.statement]
      simp [Statement.branchLayout, Statement.layout, h.otherwiseIf]
  | chained first _ hlayout =>
      rw [hlayout, Layout.contents, ← h.statement (.sequence [first])]
      rfl
  | placed s _ hlayout =>
      rw [hlayout, Layout.contents, Layout.contents, h.otherwise, h.statement, List.append_nil]
      rfl

end Contents.Agrees

/-! ## Phrases that carry what is read off them -/

/-- A run as one phrase, with what it mentions. -/
def asPhrase (run : List Fragment) (mentioned : List ClassType) : Phrase :=
  ⟨tokensIn run, mentioned⟩

section Phrases
variable (phrase : Phrase) (front back : List Fragment) (mentioned mentioned' : List ClassType)

theorem asPhrase_append :
    asPhrase (front ++ back) (mentioned ++ mentioned') =
      asPhrase front mentioned ++ asPhrase back mentioned' := by
  rw [asPhrase, tokensIn_append]
  rfl

theorem asPhrase_said : asPhrase [.tokens phrase.tokens] phrase.mentioned = phrase := by
  simp [asPhrase]

theorem asPhrase_behind :
    asPhrase (.tokens phrase.tokens :: back) (phrase.mentioned ++ mentioned) =
      phrase ++ asPhrase back mentioned := rfl

theorem asPhrase_bracketed (kind : BlockKind) (group : Group) :
    asPhrase (bracketed kind group front back) (mentioned ++ mentioned') =
      asPhrase front mentioned ++ asPhrase back mentioned' := by
  rw [asPhrase, tokensIn_bracketed]
  rfl

/-- A block around a body does not show. -/
theorem asPhrase_block (kind : BlockKind) (group : Group) :
    asPhrase (bracketed kind group front []) mentioned = asPhrase front mentioned := by
  simp [asPhrase]

/-- Behind a body that yields nothing. -/
theorem asPhrase_closed (closing : List Token) :
    asPhrase [.tokens (phrase.tokens ++ closing)] (phrase.mentioned ++ mentioned) =
      phrase ++ asPhrase [] mentioned ++ .ofTokens closing := by
  have hphrase : phrase ++ asPhrase [] mentioned ++ .ofTokens closing =
      ⟨phrase.tokens ++ [] ++ closing, phrase.mentioned ++ mentioned ++ []⟩ := rfl
  rw [hphrase]
  simp [asPhrase]

end Phrases

/-- What is read off the parts of a layout stands in their phrases, and goes along when phrases are
joined end to end. -/
structure Contents.Carried (c : Contents α) (env : Environment) (writer : DeclarationWriter)
    (carries : List α → Phrase → Prop) : Prop where
  append : ∀ {xs ys : List α} {p q : Phrase}, carries xs p → carries ys q →
    carries (xs ++ ys) (p ++ q)
  fixed : ∀ tokens ∈ [[], [.semicolon], [.space, .emptyBraces]], carries [] (.ofTokens tokens)
  head : ∀ head : Head, carries (c.head head) (head.phrase env)
  loopHead : ∀ head : LoopHead, carries (c.loopHead head) (head.phrase env)
  clauseHead : ∀ head : ClauseHead, carries (c.clauseHead head) (head.phrase env)
  resources : ∀ resources, carries (c.resources resources) (resourcesHead env resources)
  declaration : ∀ declaration front run, writer declaration env front = front ++ run →
    carries (c.declaration declaration) (asPhrase run [])

variable {c : Contents α} {env : Environment} {writer : DeclarationWriter}
  {carries : List α → Phrase → Prop} {xs ys zs : List α} {p q : Phrase}

theorem Contents.Carried.before (h : c.Carried env writer carries) (hp : carries xs p)
    {tokens : List Token} (htokens : tokens ∈ [[], [.semicolon], [.space, .emptyBraces]]) :
    carries xs (p ++ .ofTokens tokens) := by
  have hboth := h.append hp (h.fixed tokens htokens)
  rwa [List.append_nil] at hboth

/-- A layout that succeeds carries its contents. -/
theorem Layout.Yields.carries_contents (hagrees : c.Agrees)
    (hcarried : c.Carried env writer carries) {scope : Scope} {layout : Layout scope}
    {outer : Option Group} {low high : Group} {run : List Fragment} {mentioned : List ClassType}
    {failure : Option FragmentationError}
    (h : layout.Yields env writer outer low run mentioned high failure) (hok : failure = none) :
    carries (layout.contents c) (asPhrase run mentioned) := by
  have hnil : carries [] (asPhrase [] []) := hcarried.fixed [] (by simp)
  induction h with
  | nothing | spacer | reported | done => exact hnil
  | said head =>
      rw [asPhrase_said]
      exact hcarried.head head
  | @declared declaration _ front run hrun =>
      have hdeclaration := hcarried.declaration declaration front run hrun
      have hrow : asPhrase (run ++ [.tokens [.semicolon]]) [] =
          asPhrase run [] ++ .ofTokens [.semicolon] := asPhrase_append run [.tokens _] [] []
      rw [hrow]
      exact hcarried.before hdeclaration (by simp)
  | @part s _ _ _ _ _ _ ih =>
      rw [contents, ← hagrees.statement]
      exact ih hok
  | both _ _ ihFirst ihSecond =>
      rw [asPhrase_append]
      exact hcarried.append (ihFirst rfl) (ihSecond hok)
  | emptyLoop _ ih =>
      rw [asPhrase_closed]
      exact hcarried.before (hcarried.append (hcarried.loopHead _) (ih rfl)) (by simp)
  | loop _ _ ih =>
      rw [asPhrase_behind, asPhrase_block]
      exact hcarried.append (hcarried.loopHead _) (ih rfl)
  | block _ _ ihBody ihRest =>
      rw [asPhrase_bracketed]
      exact hcarried.append (ihBody rfl) (ihRest hok)
  | @attempt _ _ body _ _ _ _ _ _ _ _ _ _ _ _ ihBody ihRest =>
      rw [List.append_assoc, asPhrase_behind, asPhrase_bracketed, contents, ← hagrees.statement,
        List.append_assoc]
      exact hcarried.append (hcarried.resources _) (hcarried.append (ihBody rfl) (ihRest hok))
  | emptyAttempt _ ih =>
      rw [shrunk, asPhrase_closed, contents, ← hagrees.statement, contents, List.append_nil]
      exact hcarried.before (hcarried.append (hcarried.resources _) (ih rfl)) (by simp)
  | clause _ _ _ ihBody ihRest =>
      rw [List.append_assoc, asPhrase_behind, asPhrase_bracketed, contents, List.append_assoc]
      exact hcarried.append (hcarried.clauseHead _) (hcarried.append (ihBody rfl) (ihRest hok))
  | emptyClause _ _ ih =>
      rw [shrunk, asPhrase_closed, contents, contents, List.append_nil]
      exact hcarried.before (hcarried.append (hcarried.clauseHead _) (ih rfl)) (by simp)
  | @branch s _ _ _ _ _ _ _ ih =>
      rw [contents, ← hagrees.branch]
      exact ih hok
  | stopped | failedLoop | failedBlock | failedAttempt | noResources | failedClause => cases hok

end Reading

end JavaFragments
