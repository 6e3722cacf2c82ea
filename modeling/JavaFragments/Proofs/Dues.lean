import JavaFragments.Proofs.Layouts
import Mathlib.Algebra.BigOperators.Group.List.Basic
import Mathlib.Algebra.GroupWithZero.Nat

/-! # What a tree is due

A tariff puts a price on what a statement has for itself: on the spacers, on the body of a `try`
without resources, on that of a `do`, and on a `try` whose resources are its only clause. A tree is
due the sum over its statements. Going along the layouts gives the same sum, so what a layout yields
can be held against it rule by rule. -/
set_option autoImplicit false

namespace JavaFragments

/-- Prices. All else is free. -/
structure Tariff where
  spacer : Spacer → Nat
  tryBody : Nat
  doWhile : Nat
  /-- A `try` with resources that has no other clause, by its body. -/
  lone : Statement → Nat

def Tariff.start (tariff : Tariff) : BlockKind → Nat
  | .statements => 0
  | .singleStatement => 0
  | .tryBody => tariff.tryBody
  | .doWhile => tariff.doWhile

/-- Prices of one and zero count what has the price one. -/
theorem Tariff.sum_toNat {α : Type} (counted : α → Bool) (xs : List α) :
    (xs.map fun x => (counted x).toNat).sum = xs.countP counted := by
  induction xs with
  | nil => rfl
  | cons x rest ih =>
      rw [List.map_cons, List.sum_cons, ih, List.countP_cons, Nat.add_comm]
      cases counted x <;> rfl

/-- The gaps between the labels of a block of several labels. -/
def SwitchBlock.labelGaps : SwitchBlock → Nat
  | .label .. => 0
  | .multiLabels labels _ => labels.length - 1

namespace Statement
variable (tariff : Tariff)

/-- What a statement is due for itself. -/
def due : Statement → Nat
  | .sequence statements => (statements.length - 1) * tariff.spacer .betweenStatements
  | .switch _ blocks =>
      tariff.spacer .afterEndStatementsBlock +
        blocks.length * (tariff.spacer .afterSwitchLabel + tariff.spacer .afterSwitchBlock) +
        (blocks.length - 1) * tariff.spacer .betweenSwitchLabelBlocks +
        (blocks.map SwitchBlock.labelGaps).sum * tariff.spacer .betweenSwitchLabels
  | .tryCatch none .. => tariff.tryBody
  | .tryCatch (some (_ :: _)) body [] none => tariff.lone body
  | .doWhile .. => tariff.doWhile
  | _ => 0

/-- What the statements of the tree are due. -/
def dues (s : Statement) : Nat :=
  (s.nodes.map (due tariff)).sum

theorem dues_eq (s : Statement) :
    s.dues tariff = s.due tariff + (s.parts.map (dues tariff)).sum := by
  rw [dues, nodes_eq, List.map_cons, List.sum_cons, List.map_flatMap, List.flatMap_def,
    List.sum_flatten, List.map_map]
  rfl

theorem dues_of_parts {s : Statement} (h : s.due tariff = 0) :
    s.dues tariff = (s.parts.map (dues tariff)).sum := by
  rw [dues_eq, h, Nat.zero_add]

end Statement

/-! ## What a layout is due -/

namespace Layout
variable (tariff : Tariff)

/-- What a layout is due, by its spacers, its blocks and the statements in it. -/
@[simp] def dues : {scope : Scope} → Layout scope → Nat
  | _, .nothing | _, .said _ | _, .reported _ | _, .declared _ | _, .done => 0
  | _, .spacer kind => tariff.spacer kind
  | _, .part s => s.dues tariff
  | _, .both first second => first.dues + second.dues
  | _, .loop _ body => body.dues
  | _, .block kind body rest => tariff.start kind + body.dues + rest.dues
  | _, .attempt [] body rest => body.dues tariff + rest.dues
  | _, .attempt (_ :: _) body rest =>
      (if rest.isDone then tariff.lone body else 0) + body.dues tariff + rest.dues
  | _, .clause _ body rest => body.dues + rest.dues
  | _, .branch s => s.dues tariff

theorem dues_spaced (kind : Spacer) (layouts : List (Layout .own)) :
    (spaced kind layouts).dues tariff =
      (layouts.length - 1) * tariff.spacer kind + (layouts.map (dues tariff)).sum := by
  induction layouts with
  | nil => simp [spaced]
  | cons first rest ih =>
      cases rest with
      | nil => simp [spaced]
      | cons second rest =>
          simp only [spaced_cons, dues, ih, List.map_cons, List.sum_cons, List.length_cons,
            Nat.add_sub_cancel, Nat.add_mul]
          omega

theorem dues_body (b : Option Statement) :
    (body b).dues tariff = (b.toList.map (Statement.dues tariff)).sum := by
  cases b <;> simp [body]

theorem dues_clauses (catchClauses : List CatchClause) (finallyBody : Option Statement) :
    (clauses finallyBody catchClauses).dues tariff =
      ((catchClauses.map CatchClause.body ++ finallyBody.toList).map
        (Statement.dues tariff)).sum := by
  induction catchClauses with
  | nil => cases finallyBody <;> simp [clauses]
  | cons c rest ih => simp [clauses, ih]

end Layout

variable (tariff : Tariff)

/-- A block of a `switch`: the gaps of its labels, a spacer behind them, and one behind the body. -/
theorem SwitchBlock.dues_layout (b : SwitchBlock) :
    b.layout.dues tariff =
      b.labelGaps * tariff.spacer .betweenSwitchLabels + tariff.spacer .afterSwitchLabel +
        b.body.dues tariff + tariff.spacer .afterSwitchBlock := by
  have hlabelled : ∀ labels body, (Layout.labelled labels body).dues tariff =
      labels.dues tariff + tariff.spacer .afterSwitchLabel + body.dues tariff +
        tariff.spacer .afterSwitchBlock := by
    intro labels body
    simp only [Layout.labelled, Layout.dues]
    omega
  cases b with
  | label label body =>
      rw [layout, hlabelled, labelGaps, Nat.zero_mul]
      rfl
  | multiLabels labels body =>
      have hfree : (labels.map fun label => (Layout.said (.switchLabel label)).dues tariff).sum =
          0 := by
        simp
      rw [layout, hlabelled, Layout.dues_spaced, List.map_map, List.length_map]
      exact congrArg (fun free => _ + free + _ + _ + _) hfree

theorem sum_switchBlocks (blocks : List SwitchBlock) :
    (blocks.map fun block => block.labelGaps * tariff.spacer .betweenSwitchLabels +
        tariff.spacer .afterSwitchLabel + block.body.dues tariff +
        tariff.spacer .afterSwitchBlock).sum =
      (blocks.map SwitchBlock.labelGaps).sum * tariff.spacer .betweenSwitchLabels +
        blocks.length * (tariff.spacer .afterSwitchLabel + tariff.spacer .afterSwitchBlock) +
        ((blocks.map SwitchBlock.body).map (Statement.dues tariff)).sum := by
  induction blocks with
  | nil => simp
  | cons block rest ih =>
      simp only [List.map_cons, List.sum_cons, List.length_cons, ih, Nat.add_mul]
      omega

namespace Statement

theorem dues_emptySequence : (sequence []).dues tariff = 0 := by
  rw [dues_eq]
  simp [due, parts]

/-- A layout is due what its statement is. Only a sequence, a `switch`, a `try` and a `do` are due
anything for themselves. -/
theorem dues_layout (s : Statement) : s.layout.dues tariff = s.dues tariff := by
  cases s with
  | forLoop | forEach | whileLoop =>
      rw [dues_of_parts tariff rfl, layout, Layout.dues, Layout.dues_body]
      rfl
  | doWhile condition body =>
      rw [dues_eq]
      simp only [layout, Layout.dues, Layout.dues_body, due, parts]
      rfl
  | ifThen condition body =>
      rw [dues_of_parts tariff rfl, layout, Layout.dues, Layout.dues, Nat.zero_add, parts]
      cases body with
      | none => rfl
      | some b =>
          rw [Layout.guarded]
          split
          · rename_i hcount
            -- The body is left out, and an empty sequence is due nothing.
            rw [count_eq_zero hcount]
            simp [dues_emptySequence]
          · simp [Tariff.start]
          · simp [Tariff.start]
  | ifElse condition whenTrue whenFalse =>
      rw [dues_of_parts tariff rfl]
      simp [layout, Tariff.start, parts]
  | labelled label statement =>
      rw [dues_of_parts tariff rfl]
      cases statement <;> simp [layout, parts]
  | sequence statements =>
      rw [dues_eq, layout, Layout.dues_spaced, List.map_map, List.length_map]
      rfl
  | switch condition blocks =>
      have hblocks : (blocks.map SwitchBlock.layout).map (Layout.dues tariff) = blocks.map _ :=
        List.map_map.trans (congrArg (List.map · blocks) (funext (SwitchBlock.dues_layout tariff)))
      rw [dues_eq]
      simp only [layout, Layout.dues, Layout.dues_spaced, hblocks, sum_switchBlocks, due, parts,
        Tariff.start, List.length_map]
      omega
  | synchronized monitor body =>
      rw [dues_of_parts tariff rfl]
      cases body <;> simp [layout, Tariff.start, parts]
  | tryCatch resources body catchClauses finallyBody =>
      cases resources with
      | none =>
          rw [dues_eq, layout, Layout.dues, Layout.dues_clauses, Nat.add_assoc]
          rfl
      | some resources =>
          have hbelow := Layout.dues_clauses tariff catchClauses finallyBody
          cases resources with
          | nil =>
              rw [dues_of_parts tariff rfl, layout, Layout.dues, hbelow]
              rfl
          | cons resource resources =>
              have hdue : (if (Layout.clauses finallyBody catchClauses).isDone then
                  tariff.lone body else 0) = (tryCatch (some (resource :: resources)) body
                    catchClauses finallyBody).due tariff := by
                cases catchClauses <;> cases finallyBody <;> rfl
              rw [dues_eq, layout, Layout.dues, hbelow, hdue, Nat.add_assoc]
              rfl
  | assertion | breakTo | continueTo | comment | byteCode | expression | lambdaExpression
  | localVariables | returnVoid | returnValue | throwing | typeDeclaration =>
      rw [dues_of_parts tariff rfl]
      rfl

theorem dues_branchLayout (s : Statement) : s.branchLayout.dues tariff = s.dues tariff := by
  cases s using branchLayout_cases with
  | ifThen condition body =>
      rw [dues_of_parts tariff rfl, branchLayout, Layout.dues, Layout.dues_body]
      rfl
  | ifElse condition whenTrue whenFalse =>
      rw [dues_of_parts tariff rfl]
      simp [branchLayout, parts]
  | chained first _ hlayout =>
      rw [hlayout, Layout.dues, ← dues_layout tariff (.sequence [first])]
      rfl
  | placed s _ hlayout => rw [hlayout, Layout.dues, Layout.dues, dues_layout, Nat.add_zero]

end Statement

end JavaFragments
