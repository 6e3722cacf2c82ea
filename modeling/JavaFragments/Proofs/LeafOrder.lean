import JavaFragments.Proofs.Balance
import JavaFragments.Proofs.Contents
import JavaFragments.Proofs.LeafTokens

/-! # Leaves of statements

A statement that succeeds prints its leaves in the order of the source, each of them once. The
phrases in its layout do so, and `Yields.carries_contents` puts them together. -/
set_option autoImplicit false

namespace JavaFragments

/-! ## Heads -/

section Heads
variable (env : Environment)

theorem headWords_fixed (words : List String) : (headWords words).any Token.isLeaf = false := by
  induction words with
  | nil => rfl
  | cons word rest ih =>
      rw [headWords, List.flatMap_cons, List.any_append, ← headWords, ih]
      rfl

variable {env} in
theorem bears_parametersHead {leaves : List Leaf} {phrase : Phrase} (words : List String)
    (h : Bears env leaves phrase.tokens) :
    Bears env leaves (.ofTokens (headWords words) ++ .parameters phrase : Phrase).tokens :=
  (h.enclosed rfl rfl).behind _ (headWords_fixed words)

theorem bears_guardHead (words : List String) (condition : Expression) :
    Bears env condition.leaves (guardHead env words condition).tokens :=
  bears_parametersHead words (condition.bears env)

variable {env} in
theorem bears_simpleStatement {leaves : List Leaf} {phrase : Phrase}
    (h : Bears env leaves phrase.tokens) : Bears env leaves (simpleStatement phrase).tokens := by
  have hclosed : Bears env leaves (phrase ++ .ofToken .semicolon).tokens :=
    h.before [.semicolon] (by decide)
  exact hclosed.enclosed rfl rfl

theorem bears_optional (e : Option Expression) :
    Bears env (optionalLeaves e) (match e with
      | none => Phrase.empty
      | some e => e.phrase env).tokens := by
  cases e with
  | none => exact bears_nil
  | some e => exact e.bears env

theorem bears_jump (word : String) (label : Option String) :
    Bears env (label.toList.map .name) (jumpPhrase word label).tokens := by
  cases label with
  | none => exact (bears_of_fixed (by decide)).behind [.keyword word] rfl
  | some label =>
      have hlabel := (bears_name env label).behind [.space] (by decide)
      exact (hlabel.behind [.keyword word] rfl).before
        [.semicolon] (by decide)

theorem bears_comment (text : String) :
    Bears env ((commentLines text).map .commentLine) (commentPhrase text).tokens := by
  have hlines : Bears env ((commentLines text).flatMap fun line => [.commentLine line])
      (Phrase.join (.newLine 1)
        ((commentLines text).map fun line => .ofToken (.text line))).tokens :=
    bears_join _ rfl fun line _ => bears_commentLine line
  rw [← List.map_eq_flatMap] at hlines
  exact hlines.enclosed rfl rfl

theorem bears_assertion (condition : Expression) (message : Option Expression) :
    Bears env (condition.leaves ++ optionalLeaves message)
      (assertionPhrase env condition message).tokens := by
  have hcondition := (condition.bears env).behind
    [.keyword "assert", .space] (by decide)
  cases message with
  | none => exact hcondition.append bears_nil
  | some e =>
      exact hcondition.append ((e.bears env).behind [.spaceColonSpace] (by decide))

theorem bears_return (e : Expression) (lineNumber : Option UInt32) :
    Bears env (lineLeaves lineNumber ++ e.leaves) (returnPhrase env e lineNumber).tokens :=
  ((bears_line lineNumber).before [.keyword "return", .space] (by decide)).append
    (e.bears env)

theorem bears_throw (e : Expression) :
    Bears env e.leaves (.ofTokens [.keyword "throw", .space] ++ e.phrase env : Phrase).tokens :=
  (e.bears env).behind [.keyword "throw", .space] (by decide)

theorem bears_declarator (d : Declarator) :
    Bears env d.leaves (LocalVariableDeclaration.declaratorPhrase env d).tokens := by
  have hname := (bears_name env d.name).append (bears_dimension d.dimension)
  rw [LocalVariableDeclaration.declaratorPhrase]
  cases hinitializer : d.initializer with
  | none =>
      rw [Declarator.leaves, hinitializer]
      exact hname.append bears_nil
  | some e =>
      rw [Declarator.leaves, hinitializer]
      exact hname.append ((e.bears env).behind [.spaceEqualSpace] (by decide))

theorem bears_declaration (d : LocalVariableDeclaration) :
    Bears env d.leaves (d.phrase env).tokens := by
  have hfinal : (if d.isFinal then Phrase.ofTokens [.keyword "final", .space]
      else .empty).tokens.any Token.isLeaf = false := by
    split <;> decide
  have htype := ((d.type.bears env).behind _ hfinal).before [.space] (by decide)
  exact htype.append (bears_join _ (by decide) fun declarator _ => bears_declarator env declarator)

theorem bears_forPart (e : Option Expression) :
    Bears env (optionalLeaves e) (forPart env e).tokens := by
  cases e with
  | none => exact bears_of_fixed (show [Token.semicolon].any Token.isLeaf = false by decide)
  | some e => exact (e.bears env).behind [.semicolonSpace] (by decide)

theorem bears_forHead (declaration : Option LocalVariableDeclaration)
    (init condition update : Option Expression) :
    Bears env
      (declaration.toList.flatMap LocalVariableDeclaration.leaves ++ optionalLeaves init ++
        optionalLeaves condition ++ optionalLeaves update)
      (forHead env declaration init condition update).tokens := by
  cases declaration with
  | none =>
      have hparts := ((bears_optional env init).append (bears_forPart env condition)).append
        (bears_forPart env update)
      exact bears_parametersHead _ hparts
  | some d =>
      have hparts := (((bears_declaration env d).append (bears_optional env init)).append
        (bears_forPart env condition)).append (bears_forPart env update)
      rw [Option.toList_some, List.flatMap_singleton]
      exact bears_parametersHead _ hparts

theorem bears_forEachHead (type : JavaType) (name : String) (e : Expression) :
    Bears env (type.leaves ++ .name name :: e.leaves) (forEachHead env type name e).tokens := by
  have hname := ((bears_name env name).behind [.space] (by decide)).before
    [.spaceColonSpace] (by decide)
  have hparts := ((type.bears env).append hname).append (e.bears env)
  rw [List.append_cons]
  exact bears_parametersHead _ hparts

theorem bears_label (label : String) : Bears env [.name label] (labelPhrase label).tokens :=
  (bears_name env label).before [.colon] (by decide)

theorem bears_switchLabel (label : SwitchLabel) :
    Bears env label.leaves (label.phrase env).tokens := by
  cases label with
  | default =>
      exact bears_of_fixed
        (show [Token.keyword "default", .colon].any Token.isLeaf = false by decide)
  | expression e =>
      exact ((e.bears env).behind [.keyword "case", .space] (by decide)).before
        [.colon] (by decide)

theorem bears_resource (r : Resource) : Bears env r.leaves (r.phrase env).tokens := by
  have hname := ((bears_name env r.name).behind [.space] (by decide)).before
    [.spaceEqualSpace] (by decide)
  rw [Resource.leaves, List.append_cons]
  exact (((bears_line r.lineNumber).append (r.type.bears env)).append hname).append
    (r.expression.bears env)

theorem bears_resourcesHead (resources : List Resource) :
    Bears env (resources.flatMap Resource.leaves) (resourcesHead env resources).tokens := by
  have hjoin : Bears env (resources.flatMap Resource.leaves)
      (Phrase.join .semicolonSpace (resources.map (Resource.phrase env))).tokens :=
    bears_join _ (by decide) fun resource _ => bears_resource env resource
  refine (hjoin.enclosed rfl rfl).behind _ ?_
  split <;> decide

theorem bears_catchHead (type : ClassType) (otherTypes : List ClassType) (name : String)
    (lineNumber : Option UInt32) :
    Bears env ((type :: otherTypes).flatMap ClassType.leaves ++ .name name :: lineLeaves lineNumber)
      (catchHead env type otherTypes name lineNumber).tokens := by
  have htypes : Bears env ((type :: otherTypes).flatMap ClassType.leaves)
      (Phrase.join .verticalLine ((type :: otherTypes).map (ClassType.phrase env))).tokens :=
    bears_join _ (by decide) fun t _ => t.bears env
  have hname := ((bears_name env name).behind [.space] (by decide)).before
    [.closeBracket] (by decide)
  rw [List.append_cons]
  exact ((htypes.behind [.keyword "catch", .spaceOpenBracket] (by decide)).append hname).append
    (bears_line lineNumber)

end Heads

/-! ## Layouts -/

namespace Head

def leaves : Head → List Leaf
  | .guard _ condition => condition.leaves
  | .loopEnd condition => condition.leaves
  | .emptySynchronized monitor => monitor.leaves
  | .assertion condition message => condition.leaves ++ optionalLeaves message
  | .jump _ target => target.toList.map .name
  | .comment text => (commentLines text).map .commentLine
  | .expression e => e.leaves
  | .lambda e => e.leaves
  | .variables declaration => declaration.leaves
  | .returnVoid => []
  | .returnValue e lineNumber => lineLeaves lineNumber ++ e.leaves
  | .throwing e => e.leaves
  | .label name => [.name name]
  | .labelOf name => [.name name]
  | .switchLabel entry => entry.leaves
  | .semicolon => []

theorem bears (env : Environment) :
    (head : Head) → Bears env head.leaves (head.phrase env).tokens
  | .guard _ condition => bears_guardHead env _ condition
  | .loopEnd condition => (bears_guardHead env ["while"] condition).before [.semicolon] (by decide)
  | .emptySynchronized monitor =>
      (bears_guardHead env ["synchronized"] monitor).before [.space, .emptyBraces] (by decide)
  | .assertion condition message =>
      bears_simpleStatement (bears_assertion env condition message)
  | .jump _ target => bears_jump env _ target
  | .comment text => bears_comment env text
  | .expression e => bears_simpleStatement (e.bears env)
  | .lambda e => e.bears env
  | .variables declaration => bears_simpleStatement (bears_declaration env declaration)
  | .returnVoid =>
      bears_of_fixed (show [Token.keyword "return", .semicolon].any Token.isLeaf = false by decide)
  | .returnValue e lineNumber => bears_simpleStatement (bears_return env e lineNumber)
  | .throwing e => bears_simpleStatement (bears_throw env e)
  | .label name => bears_label env name
  | .labelOf name => (bears_label env name).before [.space] (by decide)
  | .switchLabel entry => bears_switchLabel env entry
  | .semicolon => bears_of_fixed (show [Token.semicolon].any Token.isLeaf = false by decide)

end Head

namespace LoopHead

def leaves : LoopHead → List Leaf
  | .whileLoop condition => condition.leaves
  | .forLoop declaration init condition update =>
      declaration.toList.flatMap LocalVariableDeclaration.leaves ++ optionalLeaves init ++
        optionalLeaves condition ++ optionalLeaves update
  | .forEach type name e => type.leaves ++ .name name :: e.leaves

theorem bears (env : Environment) :
    (head : LoopHead) → Bears env head.leaves (head.phrase env).tokens
  | .whileLoop condition => bears_guardHead env _ condition
  | .forLoop declaration init condition update =>
      bears_forHead env declaration init condition update
  | .forEach type name e => bears_forEachHead env type name e

end LoopHead

namespace ClauseHead

def leaves : ClauseHead → List Leaf
  | .otherwise => []
  | .otherwiseIf condition => condition.leaves
  | .catching type otherTypes name lineNumber =>
      (type :: otherTypes).flatMap ClassType.leaves ++ .name name :: lineLeaves lineNumber
  | .finally => []

theorem bears (env : Environment) :
    (head : ClauseHead) → Bears env head.leaves (head.phrase env).tokens
  | .otherwise => bears_of_fixed rfl
  | .otherwiseIf condition => bears_guardHead env _ condition
  | .catching type otherTypes name lineNumber =>
      bears_catchHead env type otherTypes name lineNumber
  | .finally => bears_of_fixed rfl

end ClauseHead

def leafContents : Contents Leaf where
  head := Head.leaves
  loopHead := LoopHead.leaves
  clauseHead := ClauseHead.leaves
  resources := List.flatMap Resource.leaves
  declaration := fun declaration => [.reference declaration.internalName declaration.name]
  statement := Statement.leaves

theorem statementLeaves_eq_flatMap (statements : List Statement) :
    statementLeaves statements = statements.flatMap Statement.leaves := by
  induction statements with
  | nil => rfl
  | cons s rest ih => rw [statementLeaves, ih, List.flatMap_cons]

theorem switchBlockLeaves_eq_flatMap (blocks : List SwitchBlock) :
    switchBlockLeaves blocks = blocks.flatMap SwitchBlock.leaves := by
  induction blocks with
  | nil => rfl
  | cons block rest ih => rw [switchBlockLeaves, ih, List.flatMap_cons]

theorem bodyLeaves_eq_flatMap (body : Option Statement) :
    bodyLeaves body = body.toList.flatMap Statement.leaves := by
  cases body with
  | none => rfl
  | some body => exact (List.flatMap_singleton ..).symm

theorem clauseLeaves_eq_flatMap (catchClauses : List CatchClause) :
    clauseLeaves catchClauses = catchClauses.flatMap CatchClause.leaves := by
  induction catchClauses with
  | nil => rfl
  | cons c rest ih => rw [clauseLeaves, ih, List.flatMap_cons]

theorem SwitchBlock.leafContents_layout (b : SwitchBlock) :
    b.layout.contents leafContents = b.leaves := by
  cases b with
  | label label body =>
      simp [layout, Layout.labelled, leafContents, Head.leaves, leaves]
  | multiLabels labels body =>
      simp [layout, Layout.labelled, Layout.contents_spaced, leafContents, Head.leaves, leaves,
        List.flatMap_map]

theorem Statement.leafContents_layout (s : Statement) :
    s.layout.contents leafContents = s.leaves := by
  cases s with
  | forLoop | forEach | whileLoop | doWhile =>
      simp [layout, Layout.contents_body, leafContents, leaves, Head.leaves, LoopHead.leaves,
        bodyLeaves_eq_flatMap]
  | ifThen condition body =>
      rw [layout, Layout.contents, Layout.contents_guarded leafContents rfl rfl, leaves,
        bodyLeaves_eq_flatMap]
      rfl
  | ifElse condition whenTrue whenFalse =>
      simp [layout, leafContents, leaves, Head.leaves]
  | labelled label statement =>
      cases statement <;>
        simp [layout, leafContents, leaves, Head.leaves, bodyLeaves]
  | sequence statements =>
      simp [layout, Layout.contents_spaced, leafContents, leaves, statementLeaves_eq_flatMap,
        List.flatMap_map]
  | switch condition blocks =>
      have hblocks : (blocks.map SwitchBlock.layout).flatMap (Layout.contents leafContents) =
          blocks.flatMap SwitchBlock.leaves := by
        simp only [List.flatMap_map, SwitchBlock.leafContents_layout]
      simp only [layout, Layout.contents, Layout.contents_spaced, hblocks, leaves,
        switchBlockLeaves_eq_flatMap, List.append_nil]
      rfl
  | synchronized monitor body =>
      cases body <;>
        simp [layout, leafContents, leaves, Head.leaves, bodyLeaves]
  | tryCatch resources body catchClauses finallyBody =>
      have hclauses : (Layout.clauses finallyBody catchClauses).contents leafContents =
          clauseLeaves catchClauses ++ bodyLeaves finallyBody := by
        rw [clauseLeaves_eq_flatMap, bodyLeaves_eq_flatMap]
        exact Layout.contents_clauses rfl (fun entry => by cases entry; rfl) catchClauses
          finallyBody
      cases resources with
      | none =>
          rw [layout, Layout.contents, hclauses, leaves, List.append_assoc]
          rfl
      | some resources =>
          rw [layout, Layout.contents, hclauses, leaves, ← List.append_assoc]
          rfl
  | _ => rfl

theorem leafContents_agrees : leafContents.Agrees where
  statement := Statement.leafContents_layout
  semicolon := rfl
  otherwise := rfl
  otherwiseIf := fun _ => rfl

/-- A declaration is printed with its name as its only leaf. -/
def DeclarationPrinter.PrintsName (env : Environment) (printer : DeclarationPrinter) : Prop :=
  ∀ declaration, Bears env [.reference declaration.internalName declaration.name]
    (tokensIn (printer declaration env))

theorem declarationHead_printsName (env : Environment) : declarationHead.PrintsName env := by
  intro declaration
  have hkeywords : (declaration.modifiers.keywords.flatMap
      fun keyword => [Token.keyword keyword, .space]).any Token.isLeaf = false :=
    headWords_fixed _
  have hname := (bears_reference env declaration.internalName declaration.name).before
    [.space, .emptyBraces] (by decide)
  have hkind := hname.behind [.keyword declaration.typeKind.keyword, .space]
    (by cases declaration.typeKind <;> decide)
  rw [declarationHead, tokensIn_tokens, tokensIn_nil, List.append_nil]
  exact hkind.behind _ hkeywords

theorem leafContents_carried (env : Environment) :
    leafContents.Carried env declarationHead.writer
      fun leaves phrase => Bears env leaves phrase.tokens where
  append := Bears.append
  fixed := by
    intro tokens htokens
    refine bears_of_fixed ?_
    revert tokens
    decide
  head := Head.bears env
  loopHead := LoopHead.bears env
  clauseHead := ClauseHead.bears env
  resources := bears_resourcesHead env
  declaration := by
    intro declaration front run hrun
    rw [← List.append_cancel_left hrun]
    exact declarationHead_printsName env declaration

end JavaFragments
