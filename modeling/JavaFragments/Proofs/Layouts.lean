import JavaFragments.Fragmentation.Layout
import JavaFragments.Proofs.Edits
import JavaFragments.Proofs.Parts

/-! # Writing layouts

`Layout.write` is the edit that a layout stands for. Writing a statement is writing its layout, for
itself by `write_eq` and as a branch by `write_branch`. Here the kinds of statements are gone
through once, and what holds of all of them is then proved along the layouts. -/
set_option autoImplicit false

namespace JavaFragments

open Edit

/-! ## Heads start with a word -/

section Heads
variable (env : Environment)

theorem LoopHead.tokens_phrase (head : LoopHead) :
    ∃ word ts, (head.phrase env).tokens = .keyword word :: ts := by
  cases head <;> exact ⟨_, _, rfl⟩

/-- The first word of a clause. -/
def ClauseHead.word : ClauseHead → String
  | .otherwise | .otherwiseIf _ => "else"
  | .catching .. => "catch"
  | .finally => "finally"

theorem ClauseHead.tokens_phrase (head : ClauseHead) :
    ∃ ts, (head.phrase env).tokens = .keyword head.word :: ts := by
  cases head <;> exact ⟨_, rfl⟩

theorem tokens_resourcesHead (resource : Resource) (resources : List Resource) :
    ∃ ts, (resourcesHead env (resource :: resources)).tokens = .keyword "try" :: ts := by
  cases resources <;> exact ⟨_, rfl⟩

end Heads

/-! ## Writing -/

namespace Layout

/-- The statements that stand in a layout. -/
@[simp] def parts : {scope : Scope} → Layout scope → List Statement
  | _, .nothing | _, .said _ | _, .spacer _ | _, .reported _ | _, .declared _ | _, .done => []
  | _, .part s => [s]
  | _, .both first second => first.parts ++ second.parts
  | _, .loop _ body => body.parts
  | _, .block _ body rest => body.parts ++ rest.parts
  | _, .attempt _ body rest => body :: rest.parts
  | _, .clause _ body rest => body.parts ++ rest.parts
  | _, .branch s => [s]

theorem spaced_cons (kind : Spacer) (first second : Layout .own) (rest : List (Layout .own)) :
    spaced kind (first :: second :: rest) =
      .both first (.both (.spacer kind) (spaced kind (second :: rest))) := rfl

theorem parts_spaced (kind : Spacer) (layouts : List (Layout .own)) :
    (spaced kind layouts).parts = layouts.flatMap parts := by
  induction layouts with
  | nil => rfl
  | cons first rest ih =>
      cases rest with
      | nil => simp [spaced]
      | cons second rest =>
          simp only [spaced_cons, parts, ih, List.nil_append, List.flatMap_cons]

theorem parts_clauses (catchClauses : List CatchClause) (finallyBody : Option Statement) :
    (clauses finallyBody catchClauses).parts =
      catchClauses.map CatchClause.body ++ finallyBody.toList := by
  induction catchClauses with
  | nil => cases finallyBody <;> rfl
  | cons c rest ih => rw [clauses, parts, ih]; rfl

theorem parts_body (b : Option Statement) : (body b).parts = b.toList := by
  cases b <;> rfl

/-- What a layout of its own adds, whatever the group, or a row behind a block of the group. -/
@[simp] def write (env : Environment) (writer : DeclarationWriter) (group : Group) :
    {scope : Scope} → Layout scope → Edit Unit
  | _, .nothing => pure ()
  | _, .said head => say env (head.phrase env)
  | _, .spacer kind => Edit.spacer kind
  | _, .reported event => report event
  | _, .declared declaration => do
      onSequence fun sequence =>
        { sequence with fragments := writer declaration env sequence.fragments }
      say env (.ofToken .semicolon)
  | _, .part s => s.write env writer .alone
  | _, .both first second => do
      first.write env writer group
      second.write env writer group
  | _, .loop head body => Edit.loop env (head.phrase env) (body.write env writer group)
  | _, .block kind body rest => do
      let group ← fresh
      enclosed kind group (body.write env writer group)
      rest.write env writer group
  | _, .attempt [] _ _ => throw .emptyResourceList
  | _, .attempt resources body rest => do
      let group ← fresh
      Edit.clause env (resourcesHead env resources) group rest.isDone (body.write env writer .alone)
      rest.write env writer group
  | _, .done => pure ()
  | _, .clause head body rest => do
      Edit.clause env (head.phrase env) group (head.isRetractable && rest.isDone)
        (body.write env writer group)
      rest.write env writer group
  | _, .branch s => s.write env writer (.elseOf group)

section Lists
variable (env : Environment) (writer : DeclarationWriter) (group : Group)

theorem write_spaced_cons (kind : Spacer) (first second : Layout .own)
    (rest : List (Layout .own)) :
    (spaced kind (first :: second :: rest)).write env writer group = (do
      first.write env writer group
      Edit.spacer kind
      (spaced kind (second :: rest)).write env writer group) := by
  rw [spaced_cons, write, write, write]

theorem write_body (b : Option Statement) :
    (body b).write env writer group = writeBody env writer b := by
  cases b with
  | none => rw [body, write, writeBody]
  | some b => rw [body, write, writeBody]

theorem write_statements (first : Statement) (rest : List Statement) :
    (spaced .betweenStatements ((first :: rest).map .part)).write env writer group = (do
      first.write env writer .alone
      writeFollowing env writer rest) := by
  induction rest generalizing first with
  | nil => simp [spaced, writeFollowing]
  | cons second rest ih =>
      rw [List.map_cons, List.map_cons, write_spaced_cons, ← List.map_cons, ih, write,
        writeFollowing]

theorem write_labels (labels : List SwitchLabel) :
    (spaced .betweenSwitchLabels (labels.map fun label => .said (.switchLabel label))).write env
        writer group = sayLabels env labels := by
  induction labels with
  | nil => rfl
  | cons label rest ih =>
      cases rest with
      | nil => rfl
      | cons next rest =>
          rw [List.map_cons] at ih
          rw [List.map_cons, List.map_cons, write_spaced_cons, ih]
          rfl

theorem write_switchBlock (b : SwitchBlock) :
    b.layout.write env writer group = b.write env writer := by
  cases b with
  | label label body => rfl
  | multiLabels labels body =>
      rw [SwitchBlock.layout, labelled, write, write_labels]
      rfl

theorem write_switchBlocks (blocks : List SwitchBlock) :
    (spaced .betweenSwitchLabelBlocks (blocks.map SwitchBlock.layout)).write env writer group =
      writeSwitchBlocks env writer blocks := by
  induction blocks with
  | nil => rfl
  | cons block rest ih =>
      cases rest with
      | nil => exact write_switchBlock env writer group block
      | cons next rest =>
          rw [writeSwitchBlocks, ← ih, ← write_switchBlock env writer group block, List.map_cons,
            List.map_cons, write_spaced_cons]
          simp

theorem isDone_clauses (catchClauses : List CatchClause) (finallyBody : Option Statement) :
    (clauses finallyBody catchClauses).isDone =
      (clauseRows env writer catchClauses finallyBody).isEmpty := by
  cases catchClauses with
  | nil => cases finallyBody <;> rfl
  | cons c rest => rfl

theorem write_clauses (catchClauses : List CatchClause) (finallyBody : Option Statement) :
    (clauses finallyBody catchClauses).write env writer group =
      clauseRow env group (clauseRows env writer catchClauses finallyBody) := by
  induction catchClauses with
  | nil => cases finallyBody <;> rfl
  | cons c rest ih =>
      have hrows : clauseRows env writer (c :: rest) finallyBody =
          (catchHead env c.type c.otherTypes c.name c.lineNumber,
            c.body.write env writer .alone) :: clauseRows env writer rest finallyBody := rfl
      rw [hrows, clauses, write, ih, clauseRow, isDone_clauses env writer]
      rfl

end Lists

/-- A clause that keeps its block, as it is written behind an `else`. -/
theorem clause_kept (env : Environment) (head : Phrase) (group : Group) (edit : Edit Unit) :
    Edit.clause env head group false edit = (do
      say env head
      inReopened group edit) := by
  funext draft
  have hopened : opened env head group draft =
      pushed (pushed (mention env head.mentioned draft).2 (.tokens head.tokens))
        (.startBlock .statements group) := by
    simp only [opened, pushed, FragmentSequence.push, FragmentSequence.append, List.append_assoc]
    rfl
  rw [clause_apply, bind_apply, inReopened_eq]
  show _ = enclosed .statements group edit
    (pushed (mention env head.mentioned draft).2 (.tokens head.tokens))
  rw [enclosed_apply, ← hopened]
  rcases edit (opened env head group draft) with ⟨e | a, after⟩ <;> rfl

end Layout

open Layout

theorem SwitchBlock.parts_layout (b : SwitchBlock) : b.layout.parts = [b.body] := by
  cases b with
  | label label body => rfl
  | multiLabels labels body =>
      have hlabels : (spaced .betweenSwitchLabels
          (labels.map fun label => .said (.switchLabel label))).parts = [] := by
        simp [parts_spaced, parts]
      rw [layout, labelled, parts, hlabels]
      rfl

namespace Statement

/-- What stands in the layout of a statement are parts of it. -/
theorem parts_layout (s : Statement) : s.layout.parts ⊆ s.parts := by
  cases s with
  | forLoop | forEach | whileLoop =>
      rw [layout, Layout.parts, parts_body]
      exact List.Subset.refl _
  | doWhile condition body =>
      simp only [layout, Layout.parts, parts_body, List.append_nil]
      exact List.Subset.refl _
  | ifThen condition body =>
      cases body with
      | none => exact List.Subset.refl _
      | some b =>
          rw [layout, Layout.parts, guarded]
          split
          · exact List.nil_subset _
          · exact List.Subset.refl _
          · exact List.Subset.refl _
  | labelled label statement => cases statement <;> exact List.Subset.refl _
  | synchronized monitor body => cases body <;> exact List.Subset.refl _
  | sequence statements =>
      rw [layout, parts_spaced, List.flatMap_map]
      simp [parts]
  | switch condition blocks =>
      have hblocks : (blocks.map SwitchBlock.layout).flatMap Layout.parts =
          blocks.map SwitchBlock.body := by
        simp only [List.flatMap_map, SwitchBlock.parts_layout, ← List.map_eq_flatMap]
      simp only [layout, Layout.parts, parts_spaced, hblocks, List.nil_append, List.append_nil]
      exact List.Subset.refl _
  | tryCatch resources body catchClauses finallyBody =>
      cases resources <;>
      · rw [layout, Layout.parts, parts_clauses]
        exact List.Subset.refl _
  | _ => exact List.Subset.refl _

/-- A conditional goes on with the group as a branch, also from inside a list that holds nothing
else. Any other statement has a clause around its layout. -/
@[elab_as_elim]
theorem branchLayout_cases {motive : Statement → Prop}
    (ifThen : ∀ condition body, motive (.ifThen condition body))
    (ifElse : ∀ condition whenTrue whenFalse, motive (.ifElse condition whenTrue whenFalse))
    (chained : ∀ first : Statement, first.isConditional = true →
      (sequence [first]).branchLayout = .branch first → motive (.sequence [first]))
    (placed : ∀ s : Statement, s.unwrapped.isConditional = false →
      s.branchLayout = .clause .otherwise s.layout .done → motive s)
    (s : Statement) : motive s := by
  cases s with
  | ifThen condition body => exact ifThen condition body
  | ifElse condition whenTrue whenFalse => exact ifElse condition whenTrue whenFalse
  | sequence statements =>
      rcases statements with _ | ⟨first, _ | ⟨second, rest⟩⟩
      · exact placed _ rfl rfl
      · cases hfirst : first.isConditional with
        | true => exact chained first hfirst (if_pos hfirst)
        | false => exact placed _ hfirst (if_neg (by simp [hfirst]))
      · exact placed _ rfl rfl
  | _ => exact placed _ rfl rfl

theorem parts_branchLayout (s : Statement) : s.branchLayout.parts ⊆ s.parts := by
  cases s using branchLayout_cases with
  | ifThen condition body =>
      rw [branchLayout, Layout.parts, parts_body, Layout.parts, List.append_nil]
      exact List.Subset.refl _
  | ifElse condition whenTrue whenFalse => exact List.Subset.refl _
  | chained first _ hlayout =>
      rw [hlayout]
      exact List.Subset.refl _
  | placed s _ hlayout =>
      rw [hlayout, Layout.parts, Layout.parts, List.append_nil]
      exact s.parts_layout

/-- Writing a statement for itself is writing its layout. -/
theorem write_eq (env : Environment) (writer : DeclarationWriter) (group : Group) (s : Statement) :
    s.write env writer .alone = s.layout.write env writer group := by
  cases s with
  | assertion | breakTo | continueTo | comment | byteCode | expression | lambdaExpression
  | localVariables | returnVoid | returnValue | throwing | typeDeclaration =>
      rw [write]
      rfl
  | forLoop | forEach | whileLoop =>
      rw [write, layout, Layout.write, write_body]
      rfl
  | doWhile condition body =>
      rw [write, layout, Layout.write, Layout.write]
      simp only [write_body, Layout.write, placed, inBlock_eq, bind_assoc, bind_pure_unit]
      rfl
  | ifThen condition body =>
      cases body with
      | none =>
          rw [write]
          rfl
      | some b =>
          rw [write, layout, Layout.write, guarded]
          congr 1
          funext _
          rcases b.count with _ | _ | n
          · rfl
          · simp only [Layout.write, inBlock_eq, bind_pure_unit]
          · simp only [Layout.write, inBlock_eq, bind_pure_unit]
  | ifElse condition whenTrue whenFalse =>
      rw [write, layout, Layout.write, Layout.write]
      simp only [Layout.write, openBlock_eq, enclosed, bind_assoc, pure_bind]
      rfl
  | labelled label statement => cases statement <;> rw [write] <;> rfl
  | sequence statements =>
      rcases statements with _ | ⟨first, _ | ⟨second, rest⟩⟩
      · rw [write]
        rfl
      · rw [write]
        exact ite_self _
      · rw [write, layout, write_statements]
        · rfl
        · simp
  | switch condition blocks =>
      rw [write, layout, Layout.write, Layout.write, Layout.write]
      simp only [write_switchBlocks, Layout.write, placed, inBlock_eq, bind_assoc, bind_pure_unit]
      rfl
  | synchronized monitor body =>
      cases body with
      | none =>
          rw [write]
          rfl
      | some s =>
          rw [write, layout, Layout.write]
          simp only [Layout.write, placed, inBlock_eq, bind_pure_unit]
          rfl
  | tryCatch resources body catchClauses finallyBody =>
      rw [write_tryCatch]
      rcases resources with _ | _ | ⟨r, rs⟩
      · rw [layout, Layout.write]
        simp only [write_clauses]
        rfl
      · rfl
      · rw [layout, Layout.write]
        · simp only [write_clauses, isDone_clauses env writer]
          rfl
        · simp

/-- Writing a statement as a branch is writing the rest of the group. -/
theorem write_branch (env : Environment) (writer : DeclarationWriter) (group : Group)
    (s : Statement) :
    s.write env writer (.elseOf group) = s.branchLayout.write env writer group := by
  cases s using branchLayout_cases with
  | ifThen condition body =>
      rw [write, branchLayout, Layout.write]
      simp only [Layout.write, ClauseHead.isRetractable, Bool.false_and, clause_kept, write_body,
        bind_pure_unit]
      rfl
  | ifElse condition whenTrue whenFalse =>
      rw [write, branchLayout, Layout.write]
      simp only [Layout.write, ClauseHead.isRetractable, Bool.false_and, clause_kept, bind_assoc]
      rfl
  | chained first hfirst hlayout => rw [hlayout, write, if_pos hfirst, Layout.write]
  | placed s hplain hlayout =>
      rw [write_placed hplain, placed, hlayout, Layout.write, ← write_eq env writer group s]
      simp only [Layout.write, ClauseHead.isRetractable, Bool.false_and, clause_kept,
        bind_pure_unit]
      rfl

end Statement

end JavaFragments
