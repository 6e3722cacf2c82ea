import JavaFragments.Proofs.Contents
import JavaFragments.Proofs.MentionedClasses

/-! # The classes that a statement mentions

A statement that succeeds mentions the counted classes of the types written in it, and prints a
reference for each of them, in the same order. The phrases in its layout do so, and
`Yields.carries_contents` puts them together. A loop that collapses and a clause that is lost keep
what they mention. -/
set_option autoImplicit false

namespace JavaFragments

open Phrase

namespace Head

def types : Head → List JavaType
  | .guard _ condition => condition.types
  | .loopEnd condition => condition.types
  | .emptySynchronized monitor => monitor.types
  | .assertion condition message => condition.types ++ optionalTypes message
  | .expression e => e.types
  | .lambda e => e.types
  | .variables declaration => declaration.types
  | .returnValue e _ => e.types
  | .throwing e => e.types
  | .switchLabel entry => entry.types
  | .jump .. | .comment _ | .returnVoid | .label _ | .labelOf _ | .semicolon => []

theorem mentions (env : Environment) :
    (head : Head) → (head.phrase env).Mentions env (countedIn head.types)
  | .guard _ condition => mentions_guardHead env _ condition
  | .loopEnd condition =>
      (mentions_guardHead env ["while"] condition).before (mentions_token .semicolon)
  | .emptySynchronized monitor =>
      (mentions_guardHead env ["synchronized"] monitor).before
        (mentions_tokens [.space, .emptyBraces])
  | .assertion condition message =>
      mentions_simpleStatement (mentions_assertion env condition message)
  | .jump _ target => mentions_jump env _ target
  | .comment text => mentions_comment env text
  | .expression e => mentions_simpleStatement (e.phrase_mentions env)
  | .lambda e => e.phrase_mentions env
  | .variables declaration => mentions_simpleStatement (mentions_declaration env declaration)
  | .returnVoid => mentions_tokens _
  | .returnValue e lineNumber => mentions_simpleStatement (mentions_return env e lineNumber)
  | .throwing e =>
      mentions_simpleStatement
        ((e.phrase_mentions env).behind (mentions_tokens [.keyword "throw", .space]))
  | .label _ => mentions_tokens _
  | .labelOf _ => (mentions_tokens _).append (mentions_token _)
  | .switchLabel entry => mentions_switchLabel env entry
  | .semicolon => mentions_token _

end Head

namespace LoopHead

def types : LoopHead → List JavaType
  | .whileLoop condition => condition.types
  | .forLoop declaration init condition update =>
      declaration.toList.flatMap LocalVariableDeclaration.types ++ optionalTypes init ++
        optionalTypes condition ++ optionalTypes update
  | .forEach type _ e => type :: e.types

theorem mentions (env : Environment) :
    (head : LoopHead) → (head.phrase env).Mentions env (countedIn head.types)
  | .whileLoop condition => mentions_guardHead env _ condition
  | .forLoop declaration init condition update =>
      mentions_forHead env declaration init condition update
  | .forEach type name e => mentions_forEachHead env type name e

end LoopHead

namespace ClauseHead

def types : ClauseHead → List JavaType
  | .otherwise => []
  | .otherwiseIf condition => condition.types
  | .catching type otherTypes _ _ => (type :: otherTypes).map .classType
  | .finally => []

theorem mentions (env : Environment) :
    (head : ClauseHead) → (head.phrase env).Mentions env (countedIn head.types)
  | .otherwise => mentions_token _
  | .otherwiseIf condition => mentions_guardHead env _ condition
  | .catching type otherTypes name lineNumber =>
      mentions_catchHead env type otherTypes name lineNumber
  | .finally => mentions_token _

end ClauseHead

def typeContents : Contents JavaType where
  head := Head.types
  loopHead := LoopHead.types
  clauseHead := ClauseHead.types
  resources := List.flatMap Resource.types
  declaration := fun _ => []
  statement := Statement.types

theorem SwitchBlock.typeContents_layout (b : SwitchBlock) :
    b.layout.contents typeContents = b.types := by
  cases b with
  | label label body =>
      simp [layout, Layout.labelled, typeContents, Head.types, types]
  | multiLabels labels body =>
      simp [layout, Layout.labelled, Layout.contents_spaced, typeContents, Head.types, types,
        List.flatMap_map]

theorem Statement.typeContents_layout (s : Statement) :
    s.layout.contents typeContents = s.types := by
  cases s with
  | forLoop | forEach | whileLoop | doWhile =>
      simp [layout, Layout.contents_body, typeContents, types, Head.types, LoopHead.types,
        bodyTypes_eq_flatMap]
  | ifThen condition body =>
      rw [layout, Layout.contents, Layout.contents_guarded typeContents rfl rfl, types,
        bodyTypes_eq_flatMap]
      rfl
  | ifElse condition whenTrue whenFalse =>
      simp [layout, typeContents, types, Head.types]
  | labelled label statement =>
      cases statement <;>
        simp [layout, typeContents, types, Head.types, bodyTypes]
  | sequence statements =>
      simp [layout, Layout.contents_spaced, typeContents, types, statementTypes_eq_flatMap,
        List.flatMap_map]
  | switch condition blocks =>
      have hblocks : (blocks.map SwitchBlock.layout).flatMap (Layout.contents typeContents) =
          blocks.flatMap SwitchBlock.types := by
        simp only [List.flatMap_map, SwitchBlock.typeContents_layout]
      simp only [layout, Layout.contents, Layout.contents_spaced, hblocks, types,
        switchBlockTypes_eq_flatMap, List.append_nil]
      rfl
  | synchronized monitor body =>
      cases body <;>
        simp [layout, typeContents, types, Head.types, bodyTypes]
  | tryCatch resources body catchClauses finallyBody =>
      have hclauses : (Layout.clauses finallyBody catchClauses).contents typeContents =
          clauseTypes catchClauses ++ bodyTypes finallyBody := by
        rw [clauseTypes_eq_flatMap, bodyTypes_eq_flatMap]
        exact Layout.contents_clauses rfl (fun entry => by cases entry; rfl) catchClauses
          finallyBody
      cases resources with
      | none =>
          rw [layout, Layout.contents, hclauses, types, List.append_assoc]
          rfl
      | some resources =>
          rw [layout, Layout.contents, hclauses, types, ← List.append_assoc]
          rfl
  | _ => rfl

theorem typeContents_agrees : typeContents.Agrees where
  statement := Statement.typeContents_layout
  semicolon := rfl
  otherwise := rfl
  otherwiseIf := fun _ => rfl

theorem typeContents_carried (env : Environment) (writer : DeclarationWriter) :
    typeContents.Carried env writer fun types phrase => phrase.Mentions env (countedIn types) where
  append := by
    intro xs ys p q hp hq
    rw [countedIn_append]
    exact hp.append hq
  fixed := fun tokens _ => mentions_tokens tokens
  head := Head.mentions env
  loopHead := LoopHead.mentions env
  clauseHead := ClauseHead.mentions env
  resources := mentions_resourcesHead env
  declaration := fun _ _ run _ => mentions_tokens (tokensIn run)

/-- What a statement mentions that succeeds, and what it prints, with the classes of its types. -/
theorem Layout.Yields.mentions {env : Environment} {writer : DeclarationWriter} {s : Statement}
    {low high : Group} {run : List Fragment} {mentioned : List ClassType}
    (h : s.layout.Yields env writer none low run mentioned high none) :
    (asPhrase run mentioned).Mentions env (countedIn s.types) := by
  have hcarried := h.carries_contents typeContents_agrees (typeContents_carried env writer) rfl
  rwa [s.typeContents_layout] at hcarried

end JavaFragments
