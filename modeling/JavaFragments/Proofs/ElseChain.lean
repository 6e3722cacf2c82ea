import JavaFragments.Proofs.Collapse
import Mathlib.Algebra.Ring.Int.Defs

/-! # Chains of conditionals

A conditional that stands alone in an `else` branch goes on with the chain that it stands in.
`ElseLinks` reads a chain off the tree, through the lists of one element around its links. Written
into a session it is a flat row of branches that share the group of the first `if`, however long it
is and whatever its bodies hold. -/
set_option autoImplicit false

namespace JavaFragments

open Edit

/-- The conditions behind an `else` with their bodies, and the statement behind the last `else`. -/
inductive ElseLinks :
    Statement → List (Expression × Option Statement) → Option Statement → Prop where
  | plain {e : Statement} : e.unwrapped.isConditional = false → ElseLinks e [] (some e)
  | ifThen {e : Statement} {condition : Expression} {body : Option Statement} :
      e.unwrapped = .ifThen condition body → ElseLinks e [(condition, body)] none
  | ifElse {e whenTrue whenFalse : Statement} {condition : Expression}
      {links : List (Expression × Option Statement)} {last : Option Statement} :
      e.unwrapped = .ifElse condition whenTrue whenFalse → ElseLinks whenFalse links last →
        ElseLinks e ((condition, some whenTrue) :: links) last

/-- Words and, behind them, the block of parameters around a condition. -/
def conditionHead (env : Environment) (words : List Token) (condition : Expression) : Phrase :=
  ⟨words ++ .startBlock .parameters :: (condition.phrase env).tokens ++ [.endBlock .parameters],
    (condition.phrase env).mentioned⟩

/-- The branches behind the first one, by their heads and bodies. -/
def elseRows (env : Environment) (links : List (Expression × Option Statement))
    (last : Option Statement) : List (Phrase × Option Statement) :=
  links.map (fun link =>
      (conditionHead env [.keyword "else", .space, .keyword "if", .space] link.1, link.2)) ++
    last.toList.map fun body => (.ofToken (.keyword "else"), some body)

/-- The branches of a chain. -/
def chainRows (env : Environment) (condition : Expression) (whenTrue : Statement)
    (links : List (Expression × Option Statement)) (last : Option Statement) :
    List (Phrase × Option Statement) :=
  (conditionHead env [.keyword "if", .space] condition, some whenTrue) :: elseRows env links last

theorem guardHead_eq_conditionHead (env : Environment) (words : List String)
    (condition : Expression) :
    guardHead env words condition = conditionHead env (headWords words) condition := by
  have hmentioned : (guardHead env words condition).mentioned = (condition.phrase env).mentioned :=
    List.append_nil _
  have htokens : (guardHead env words condition).tokens =
      (conditionHead env (headWords words) condition).tokens := by
    simp [guardHead, conditionHead, Phrase.parameters, Phrase.enclosed, Phrase.tokens_append,
      Phrase.ofToken, Phrase.ofTokens]
  exact congrArg₂ Phrase.mk htokens hmentioned

theorem guardHead_if (env : Environment) (condition : Expression) :
    guardHead env ["if"] condition = conditionHead env [.keyword "if", .space] condition :=
  guardHead_eq_conditionHead env ["if"] condition

theorem guardHead_else_if (env : Environment) (condition : Expression) :
    guardHead env ["else", "if"] condition =
      conditionHead env [.keyword "else", .space, .keyword "if", .space] condition :=
  guardHead_eq_conditionHead env ["else", "if"] condition

namespace Statement

theorem sizeOf_unwrapped_le (e : Statement) : sizeOf e.unwrapped ≤ sizeOf e := by
  unfold unwrapped
  split
  · exact Nat.le_of_lt (sizeOf_lt_of_mem_parts List.mem_cons_self)
  · exact Nat.le_refl _

/-- Every `else` branch goes on with its chain or ends it. -/
theorem exists_elseLinks (e : Statement) : ∃ links last, ElseLinks e links last := by
  cases hinner : e.unwrapped with
  | ifThen condition body => exact ⟨_, _, .ifThen hinner⟩
  | ifElse condition whenTrue whenFalse =>
      have hsmaller : sizeOf whenFalse < sizeOf e := by
        apply Nat.lt_of_lt_of_le _ e.sizeOf_unwrapped_le
        rw [hinner]
        exact sizeOf_lt_of_mem_parts (by simp [parts])
      obtain ⟨links, last, hlinks⟩ := exists_elseLinks whenFalse
      exact ⟨_, _, .ifElse hinner hlinks⟩
  | _ => exact ⟨_, _, .plain (by rw [hinner]; rfl)⟩
termination_by sizeOf e

end Statement

namespace Edit

/-- Branches of one group by their heads and bodies, each body in a block. -/
def branchRow (env : Environment) (group : Group) : List (Phrase × Edit Unit) → Edit Unit
  | [] => pure ()
  | (head, body) :: rest => do
      say env head
      enclosed .statements group body
      branchRow env group rest

theorem branchRow_cons_apply (env : Environment) (group : Group) (head : Phrase)
    (body : Edit Unit) (rest : List (Phrase × Edit Unit)) (draft : Draft) :
    branchRow env group ((head, body) :: rest) draft =
      match body (opened env head group draft) with
      | (.ok _, after) => branchRow env group rest (pushed after (.endBlock .statements group))
      | (.error e, after) => (.error e, after) := by
  have hhead : say env head draft = (.ok (),
      pushed (mention env head.mentioned draft).2 (.tokens head.tokens)) := rfl
  have hopened : pushed (pushed (mention env head.mentioned draft).2 (.tokens head.tokens))
      (.startBlock .statements group) = opened env head group draft := by
    simp only [opened, pushed, FragmentSequence.push, FragmentSequence.append, List.append_assoc]
    rfl
  rw [branchRow, bind_apply, hhead]
  dsimp only
  rw [bind_apply, enclosed_apply, hopened]
  rcases body (opened env head group draft) with ⟨e | a, after⟩ <;> rfl

end Edit

/-- The heads and bodies as edits. -/
def writtenRows (env : Environment) (writer : DeclarationWriter)
    (rows : List (Phrase × Option Statement)) : List (Phrase × Edit Unit) :=
  rows.map fun row => (row.1, writeBody env writer row.2)

/-- Behind an `else` a chain is a row of branches. -/
theorem write_elseLinks (env : Environment) (writer : DeclarationWriter) (group : Group)
    {e : Statement} {links : List (Expression × Option Statement)} {last : Option Statement}
    (h : ElseLinks e links last) :
    e.write env writer (.elseOf group) =
      branchRow env group (writtenRows env writer (elseRows env links last)) := by
  induction h with
  | plain hplain =>
      rw [Statement.write_placed hplain]
      simp [placed, elseRows, writtenRows, branchRow, writeBody, inReopened_eq]
  | ifThen hinner =>
      rw [Statement.write_unwrapped (by rw [hinner]; rfl), hinner]
      simp [Statement.write, elseRows, writtenRows, branchRow, inReopened_eq, guardHead_else_if]
  | @ifElse e whenTrue whenFalse condition links last hinner _ ih =>
      have hrows :
          writtenRows env writer (elseRows env ((condition, some whenTrue) :: links) last) =
            (conditionHead env [.keyword "else", .space, .keyword "if", .space] condition,
              whenTrue.write env writer .alone) ::
                writtenRows env writer (elseRows env links last) := rfl
      rw [Statement.write_unwrapped (by rw [hinner]; rfl), hinner, hrows, branchRow, ← ih,
        ← guardHead_else_if]
      simp only [Statement.write, inReopened_eq]

/-- A chain takes one number and is a row of branches. -/
theorem write_chain (env : Environment) (writer : DeclarationWriter) (condition : Expression)
    (whenTrue : Statement) {whenFalse : Statement}
    {links : List (Expression × Option Statement)} {last : Option Statement}
    (h : ElseLinks whenFalse links last) :
    (Statement.ifElse condition whenTrue whenFalse).write env writer .alone =
      fresh >>= fun group => branchRow env group
        (writtenRows env writer (chainRows env condition whenTrue links last)) := by
  have hlate : ∀ (head : Phrase) (next : Group → Edit Unit),
      (say env head >>= fun _ => fresh >>= next) =
        fresh >>= fun group => say env head >>= fun _ => next group :=
    fun _ _ => rfl
  have hrows : writtenRows env writer (chainRows env condition whenTrue links last) =
      (conditionHead env [.keyword "if", .space] condition, whenTrue.write env writer .alone) ::
        writtenRows env writer (elseRows env links last) := rfl
  simp only [Statement.write, openBlock_eq, bind_assoc, pure_bind, guardHead_if, hlate, hrows,
    branchRow, write_elseLinks env writer _ h, enclosed]

/-- A branch with the session in which its body is written, behind the start of the block. -/
structure Branch where
  head : Phrase
  body : Option Statement
  inside : Session

namespace Session

/-- The session behind a body that may be missing. -/
def behindBody (s : Session) : Option Statement → Session
  | none => s
  | some body => (s.fragment body).1

/-- The branches of one group, each behind the block of the one in front of it. -/
def branches (group : Group) : Session → List (Phrase × Option Statement) → List Branch
  | _, [] => []
  | s, (head, body) :: rest =>
      let inside := s.inClause head group
      ⟨head, body, inside⟩ ::
        branches group ((inside.behindBody body).behind (.endBlock .statements group)) rest

end Session

namespace Branch

def Succeeds (branch : Branch) : Prop :=
  ∀ body ∈ branch.body, (branch.inside.fragment body).2 = none

/-- The fragments of the body, and none where it is missing. -/
def added (branch : Branch) : List Fragment :=
  match branch.body with
  | none => []
  | some body => branch.inside.addedBy body

/-- How far the body moves the next free group number. -/
def taken (branch : Branch) : Int :=
  (branch.inside.behindBody branch.body).sequence.allocated - branch.inside.sequence.allocated

def run (group : Group) (branch : Branch) : List Fragment :=
  .tokens branch.head.tokens :: bracketed .statements group branch.added []

end Branch

namespace Session

theorem fragments_behindBody {s : Session} (hwriter : s.writer.Appends) (head : Phrase)
    (body : Option Statement) :
    (s.behindBody body).fragments = s.fragments ++ (Branch.mk head body s).added := by
  cases body with
  | none => exact (List.append_nil _).symm
  | some body => exact (s.addedBy_grows hwriter body).1

/-- A body that is written leaves the session behind it. -/
theorem writeBody_of_ok {s : Session} {body : Option Statement} {after : Draft}
    (h : writeBody s.environment s.writer body s.toDraft = (.ok (), after)) :
    s.behindBody body = { s with toDraft := after } ∧
      ∀ b ∈ body, (s.fragment b).2 = none := by
  cases body with
  | none =>
      cases h
      exact ⟨rfl, fun _ hb => nomatch hb⟩
  | some body =>
      have hfragment := write_of_ok h
      refine ⟨congrArg Prod.fst hfragment, ?_⟩
      intro b hb
      obtain rfl := Option.mem_some_iff.1 hb
      exact congrArg Prod.snd hfragment

theorem branchRow_ok {s : Session} (hwriter : s.writer.Appends) (group : Group)
    (rows : List (Phrase × Option Statement)) {after : Draft}
    (hrun : branchRow s.environment group (writtenRows s.environment s.writer rows) s.toDraft =
      (.ok (), after)) :
    after.fragments = s.fragments ++ (s.branches group rows).flatMap (Branch.run group) ∧
      (after.sequence.allocated : Int) =
        s.sequence.allocated + ((s.branches group rows).map Branch.taken).sum ∧
      ∀ branch ∈ s.branches group rows, branch.inside.writer = s.writer ∧ branch.Succeeds := by
  induction rows generalizing s with
  | nil =>
      cases hrun
      simp [branches, Draft.fragments]
  | cons row rest ih =>
      obtain ⟨head, body⟩ := row
      have hrows : writtenRows s.environment s.writer ((head, body) :: rest) =
          (head, writeBody s.environment s.writer body) ::
            writtenRows s.environment s.writer rest := rfl
      rw [hrows, branchRow_cons_apply] at hrun
      rcases hbody : writeBody s.environment s.writer body
        (opened s.environment head group s.toDraft) with ⟨e | _, inner⟩
      · rw [hbody] at hrun
        cases hrun
      · rw [hbody] at hrun
        let inside := s.inClause head group
        obtain ⟨hinside, hsucceeds⟩ := writeBody_of_ok (s := inside) hbody
        let closed : Session := { s with toDraft := pushed inner (.endBlock .statements group) }
        have hbranches : s.branches group ((head, body) :: rest) =
            ⟨head, body, inside⟩ :: closed.branches group rest := by
          rw [branches, hinside]
          rfl
        have hinner : inner.fragments = s.fragments ++
            [.tokens head.tokens, .startBlock .statements group] ++
              (Branch.mk head body inside).added := by
          have hadded := inside.fragments_behindBody hwriter head body
          rw [hinside] at hadded
          exact hadded
        have htaken : (Branch.mk head body inside).taken =
            closed.sequence.allocated - s.sequence.allocated := by
          rw [Branch.taken, hinside]
          rfl
        obtain ⟨hfragments, hallocated, hrest⟩ := ih (s := closed) hwriter hrun
        have hclosed : closed.fragments = inner.fragments ++ [.endBlock .statements group] := rfl
        rw [hbranches]
        refine ⟨?_, ?_, ?_⟩
        · rw [hfragments, hclosed, hinner, List.flatMap_cons]
          simp [Branch.run, bracketed]
        · rw [hallocated, List.map_cons, List.sum_cons, htaken]
          omega
        · intro branch hbranch
          rcases List.mem_cons.1 hbranch with rfl | hbranch
          · exact ⟨rfl, hsucceeds⟩
          · exact hrest branch hbranch

end Session

/-- What a body adds that succeeds has all its blocks closed. -/
theorem Branch.balanced_added {branch : Branch} (hwriter : branch.inside.writer.AddsBalanced)
    (hok : branch.Succeeds) : Balanced branch.added := by
  obtain ⟨head, body, inside⟩ := branch
  cases body with
  | none => exact .nil
  | some body =>
      have hbody : (inside.fragment body).2 = none := hok body rfl
      apply (inside.addedBy_balanced_iff hwriter body).2
      rintro ⟨path, hpath, -⟩
      rw [(inside.fragment_run hwriter body).2.1, hpath] at hbody
      cases hbody

/-- A chain of conditionals is flat at every length. Every `if` with an `else` heads a chain, and
where it succeeds it adds the branches of the chain in a row: the head of each, and a block of the
one new group around the balanced run of its body. So the blocks stand on one level, and no other
number is taken but by the bodies. -/
theorem else_chain_is_flat {s : Session} (hwriter : s.writer.AddsBalanced)
    (condition : Expression) (whenTrue whenFalse : Statement) :
    (∃ links last, ElseLinks whenFalse links last) ∧
      ∀ links last, ElseLinks whenFalse links last →
        (s.fragment (.ifElse condition whenTrue whenFalse)).2 = none →
        let after := (s.fragment (.ifElse condition whenTrue whenFalse)).1
        let group := s.sequence.allocated
        let branches := s.behindGroup.branches group
          (chainRows s.environment condition whenTrue links last)
        after.fragments = s.fragments ++ branches.flatMap (Branch.run group) ∧
          (∀ branch ∈ branches, branch.Succeeds ∧ Balanced branch.added) ∧
          (after.sequence.allocated : Int) = group + 1 + (branches.map Branch.taken).sum := by
  refine ⟨whenFalse.exists_elseLinks, ?_⟩
  intro links last hlinks hok
  obtain ⟨after, hrun, hfragment⟩ := Session.fragment_ok hok
  rw [write_chain s.environment s.writer condition whenTrue hlinks] at hrun
  have hrow : branchRow s.environment s.sequence.allocated
      (writtenRows s.environment s.writer (chainRows s.environment condition whenTrue links last))
      s.behindGroup.toDraft = (.ok (), after) := hrun
  obtain ⟨hfragments, hallocated, hbranches⟩ :=
    Session.branchRow_ok (s := s.behindGroup) hwriter.appends _ _ hrow
  rw [hfragment]
  refine ⟨hfragments, ?_, hallocated⟩
  intro branch hbranch
  obtain ⟨hinside, hsucceeds⟩ := hbranches branch hbranch
  refine ⟨hsucceeds, Branch.balanced_added ?_ hsucceeds⟩
  rw [hinside]
  exact hwriter

/-- In an open block: an `if` over a loop, an `else if` with an `else` in a list of its own, and
behind it an `if` without a body. -/
theorem else_chain_is_flat_in_open_block :
    let s : Session :=
      ⟨⟨⟨[.startBlock .doWhile 4], 5⟩, .empty, []⟩, ⟨"Main"⟩, declarationHead.writer⟩
    let loop := Statement.whileLoop .thisReference (some .returnVoid)
    let rest := Statement.sequence [.ifElse .thisReference .returnVoid (.ifThen .nullLiteral none)]
    let links : List (Expression × Option Statement) :=
      [(.thisReference, some .returnVoid), (.nullLiteral, none)]
    let chain := Statement.ifElse .thisReference loop rest
    s.writer.AddsBalanced ∧ ElseLinks rest links none ∧ (s.fragment chain).2 = none ∧
      (s.fragment chain).1.fragments = s.fragments ++
        [.tokens [.keyword "if", .space, .startBlock .parameters, .keyword "this",
            .endBlock .parameters],
          .startBlock .statements 5,
          .tokens [.keyword "while", .space, .startBlock .parameters, .keyword "this",
            .endBlock .parameters],
          .startBlock .singleStatement 6, .tokens [.keyword "return", .semicolon],
          .endBlock .singleStatement 6, .endBlock .statements 5,
          .tokens [.keyword "else", .space, .keyword "if", .space, .startBlock .parameters,
            .keyword "this", .endBlock .parameters],
          .startBlock .statements 5, .tokens [.keyword "return", .semicolon],
          .endBlock .statements 5,
          .tokens [.keyword "else", .space, .keyword "if", .space, .startBlock .parameters,
            .keyword "null", .endBlock .parameters],
          .startBlock .statements 5, .endBlock .statements 5] ∧
      (s.fragment chain).1.sequence.allocated = 7 := by
  intro s loop rest links chain
  have hwriter : s.writer.AddsBalanced := declarationHead_addsBalanced
  have hlinks : ElseLinks rest links none := .ifElse rfl (.ifThen rfl)
  have hok : (s.fragment chain).2 = none := rfl
  obtain ⟨-, hchain⟩ := else_chain_is_flat hwriter .thisReference loop rest
  obtain ⟨hfragments, -, hallocated⟩ := hchain links none hlinks hok
  exact ⟨hwriter, hlinks, hok, hfragments, Int.ofNat_inj.1 hallocated⟩

end JavaFragments
