import JavaFragments.Fragmentation.Write
import Mathlib.Tactic.Common

/-! # Laws of edits

`bind_apply` and its companions say what an edit does to a draft. The control of a `try` is
brought into a form where every clause closes itself: `clauseRow` stands for the clauses behind
one another, and `write_tryCatch` says that a `try` is such a row. In an `else` branch a conditional
goes on with its chain, `write_unwrapped`, and any other statement has its own block,
`write_placed`. -/
set_option autoImplicit false

namespace JavaFragments

namespace Edit

section Apply
variable {α β : Type}

theorem bind_apply (edit : Edit α) (next : α → Edit β) (draft : Draft) :
    (edit >>= next) draft = match edit draft with
      | (.ok a, after) => next a after
      | (.error e, after) => (.error e, after) := by
  simp only [bind, ExceptT.bind, ExceptT.mk, StateT.bind]
  rcases edit draft with ⟨result | result, after⟩ <;> rfl

end Apply

/-- Takes a group number that no other edit gets. -/
def fresh : Edit Group :=
  modifyGet fun draft =>
    let (group, sequence) := draft.sequence.freshGroup
    (group, { draft with sequence := sequence })

/-- An edit between the start and the end of a block. -/
def enclosed (kind : BlockKind) (group : Group) (body : Edit Unit) : Edit Unit := do
  push (.startBlock kind group)
  body
  closeBlock kind group

theorem openBlock_eq (kind : BlockKind) :
    openBlock kind = (do
      let group ← fresh
      push (.startBlock kind group)
      return group) := rfl

theorem inBlock_eq (kind : BlockKind) (body : Edit Unit) :
    inBlock kind body = fresh >>= fun group => enclosed kind group body := by
  simp only [inBlock, openBlock_eq, enclosed, bind_assoc, pure_bind]

theorem inReopened_eq (group : Group) (body : Edit Unit) :
    inReopened group body = enclosed .statements group body := rfl

theorem openClause_none (env : Environment) (head : Phrase) :
    openClause env head none = fresh >>= fun group => openClause env head (some group) := rfl

/-- A clause from its head to the end of its body. -/
def clause (env : Environment) (head : Phrase) (group : Group) (last : Bool) (body : Edit Unit) :
    Edit Unit := do
  let (_, opened) ← openClause env head (some group)
  body
  if last then closeLast group opened else closeBlock .statements group

/-- A draft behind a fragment. -/
def pushed (draft : Draft) (fragment : Fragment) : Draft :=
  { draft with sequence := draft.sequence.push fragment }

@[simp] theorem fragments_pushed (draft : Draft) (fragment : Fragment) :
    (pushed draft fragment).fragments = draft.fragments ++ [fragment] := rfl

theorem enclosed_apply (kind : BlockKind) (group : Group) (body : Edit Unit) (draft : Draft) :
    enclosed kind group body draft =
      match body (pushed draft (.startBlock kind group)) with
      | (.ok _, after) => (.ok (), pushed after (.endBlock kind group))
      | (.error e, after) => (.error e, after) := by
  rw [enclosed, bind_apply]
  show (body >>= fun _ => closeBlock kind group) (pushed draft (.startBlock kind group)) = _
  rw [bind_apply]
  rcases body (pushed draft (.startBlock kind group)) with ⟨e | a, after⟩ <;> rfl

/-- The sequence of before, behind an edit of another one. -/
def restored (before after : Draft) : Draft :=
  { after with sequence := { after.sequence with fragments := before.fragments } }

/-- The draft in which the body of a loop is written. -/
def emptied (env : Environment) (head : Phrase) (draft : Draft) : Draft :=
  ⟨⟨[], draft.sequence.allocated⟩, draft.imports.insertAll head.mentioned env, draft.events⟩

@[simp] theorem fragments_restored (before after : Draft) :
    (restored before after).fragments = before.fragments := rfl

theorem loop_apply (env : Environment) (head : Phrase) (body : Edit Unit) (draft : Draft) :
    loop env head body draft =
      match body (emptied env head draft) with
      | (.ok _, after) => loopBody head.tokens after.fragments (restored draft after)
      | (.error e, after) => (.error e, restored draft after) := by
  rw [loop, bind_apply]
  show (apart body >>= loopBody head.tokens) (mention env head.mentioned draft).2 = _
  rw [bind_apply]
  have hbody : apart body (mention env head.mentioned draft).2 =
      ((body (emptied env head draft)).1.map fun _ => (body (emptied env head draft)).2.fragments,
        restored draft (body (emptied env head draft)).2) := rfl
  rw [hbody]
  rcases body (emptied env head draft) with ⟨e | a, after⟩ <;> rfl

/-- The draft in which the body of a clause is written. -/
def opened (env : Environment) (head : Phrase) (group : Group) (draft : Draft) : Draft :=
  ⟨⟨draft.fragments ++ [.tokens head.tokens, .startBlock .statements group],
    draft.sequence.allocated⟩, draft.imports.insertAll head.mentioned env, draft.events⟩

/-- A draft that is taken back to a length, with the head of an empty clause behind it. -/
def retracted (after : Draft) (length : Nat) (head : List Token) : Draft :=
  ⟨⟨after.fragments.take length ++ [.tokens (head ++ [.space, .emptyBraces])],
    after.sequence.allocated⟩, after.imports, after.events ++ [.emptyClauseBody]⟩

@[simp] theorem fragments_opened (env : Environment) (head : Phrase) (group : Group)
    (draft : Draft) :
    (opened env head group draft).fragments =
      draft.fragments ++ [.tokens head.tokens, .startBlock .statements group] := rfl

@[simp] theorem fragments_retracted (after : Draft) (length : Nat) (head : List Token) :
    (retracted after length head).fragments =
      after.fragments.take length ++ [.tokens (head ++ [.space, .emptyBraces])] := rfl

theorem closeLast_apply (group : Group) (kind : BlockKind) (checkpoint : Checkpoint)
    (draft : Draft) :
    closeLast group ⟨kind, some checkpoint⟩ draft =
      if checkpoint.bodyAt = draft.fragments.length then
        (.ok (), retracted draft checkpoint.headAt checkpoint.head)
      else (.ok (), pushed draft (.endBlock kind group)) := by
  have hlength : length draft = (.ok draft.fragments.length, draft) := rfl
  simp only [closeLast, bind_apply, hlength]
  split <;> rfl

theorem clause_apply (env : Environment) (head : Phrase) (group : Group) (last : Bool)
    (body : Edit Unit) (draft : Draft) :
    clause env head group last body draft =
      match body (opened env head group draft) with
      | (.ok _, after) =>
          if last = true ∧ draft.fragments.length + 2 = after.fragments.length then
            (.ok (), retracted after draft.fragments.length head.tokens)
          else (.ok (), pushed after (.endBlock .statements group))
      | (.error e, after) => (.error e, after) := by
  have hsteps : opened env head group draft =
      pushed (pushed (mention env head.mentioned draft).2 (.tokens head.tokens))
        (.startBlock .statements group) := by
    simp only [opened, pushed, FragmentSequence.push, FragmentSequence.append, List.append_assoc]
    rfl
  have hlength : (opened env head group draft).fragments.length = draft.fragments.length + 2 := by
    simp only [opened, Draft.fragments, List.length_append, List.length_cons, List.length_nil]
  have hopen : openClause env head (some group) draft =
      (.ok (group, ⟨.statements, some ⟨draft.fragments.length, head.tokens,
        draft.fragments.length + 2⟩⟩), opened env head group draft) := by
    rw [← hlength, hsteps]
    rfl
  rw [clause, bind_apply, hopen]
  dsimp only
  rw [bind_apply]
  rcases body (opened env head group draft) with ⟨e | a, after⟩
  · rfl
  · cases last with
    | false => rfl
    | true =>
        simp only [if_true, closeLast_apply, true_and]

/-- Clauses by their heads and bodies, the last one by itself. -/
def clauseRow (env : Environment) (group : Group) : List (Phrase × Edit Unit) → Edit Unit
  | [] => pure ()
  | (head, body) :: rest => do
      clause env head group rest.isEmpty body
      clauseRow env group rest

/-- What is left of a `try` behind an open clause. -/
def finishRow (env : Environment) (group : Group) :
    OpenClause → List (Phrase × Edit Unit) → Edit Unit
  | opened, [] => closeLast group opened
  | opened, (head, body) :: rest => do
      let next ← nextClause env group opened head
      body
      finishRow env group next rest

theorem clauseRow_eq (env : Environment) (group : Group) (head : Phrase) (body : Edit Unit)
    (rest : List (Phrase × Edit Unit)) :
    clauseRow env group ((head, body) :: rest) = (do
      let (_, opened) ← openClause env head (some group)
      body
      finishRow env group opened rest) := by
  induction rest generalizing head body with
  | nil => simp [clauseRow, clause, finishRow]
  | cons row rest ih =>
      obtain ⟨nextHead, nextBody⟩ := row
      rw [clauseRow, ih]
      simp only [clause, finishRow, nextClause, openClause, List.isEmpty_cons, Bool.false_eq_true,
        if_false, bind_assoc, pure_bind]

/-- Behind a clause that is not the last the next one closes it first. -/
theorem finishRow_plain (env : Environment) (group : Group) (kind : BlockKind)
    (rows : List (Phrase × Edit Unit)) :
    finishRow env group ⟨kind, none⟩ rows = (do
      closeBlock kind group
      clauseRow env group rows) := by
  cases rows with
  | nil => simp [finishRow, closeLast, clauseRow]
  | cons row rest =>
      obtain ⟨head, body⟩ := row
      rw [clauseRow_eq]
      simp only [finishRow, nextClause, bind_assoc, pure_bind]

end Edit

open Edit

/-- The `catch` and `finally` clauses of a `try`. -/
def clauseRows (env : Environment) (writer : DeclarationWriter) (catchClauses : List CatchClause)
    (finallyBody : Option Statement) : List (Phrase × Edit Unit) :=
  catchClauses.map (fun c => (catchHead env c.type c.otherTypes c.name c.lineNumber,
      c.body.write env writer .alone)) ++
    finallyBody.toList.map fun body =>
      (.ofToken (.keyword "finally"), body.write env writer .alone)

theorem writeClauses_eq (env : Environment) (writer : DeclarationWriter) (group : Group)
    (opened : OpenClause) (catchClauses : List CatchClause) (finallyBody : Option Statement) :
    (do
      let opened ← writeClauses env writer group opened catchClauses
      let opened ← writeFinally env writer group opened finallyBody
      closeLast group opened) =
      finishRow env group opened (clauseRows env writer catchClauses finallyBody) := by
  induction catchClauses generalizing opened with
  | nil =>
      cases finallyBody with
      | none => simp [writeClauses, writeFinally, clauseRows, finishRow]
      | some body => simp [writeClauses, writeFinally, clauseRows, finishRow]
  | cons c rest ih =>
      obtain ⟨type, otherTypes, name, lineNumber, body⟩ := c
      have hrows : clauseRows env writer (⟨type, otherTypes, name, lineNumber, body⟩ :: rest)
          finallyBody =
          (catchHead env type otherTypes name lineNumber, body.write env writer .alone) ::
            clauseRows env writer rest finallyBody := rfl
      rw [hrows]
      simp only [writeClauses, CatchClause.write, finishRow, bind_assoc, pure_bind, ih]

/-- A `try` is a row of clauses that each close themselves. -/
theorem write_tryCatch (env : Environment) (writer : DeclarationWriter) (spot : Place)
    (resources : Option (List Resource)) (body : Statement) (catchClauses : List CatchClause)
    (finallyBody : Option Statement) :
    (Statement.tryCatch resources body catchClauses finallyBody).write env writer spot =
      placed env spot (
        let rows := clauseRows env writer catchClauses finallyBody
        match resources with
        | none => fresh >>= fun group => do
            enclosed .tryBody group (body.write env writer .alone)
            clauseRow env group rows
        | some [] => throw .emptyResourceList
        | some resources => fresh >>= fun group =>
            clauseRow env group
              ((resourcesHead env resources, body.write env writer .alone) :: rows)) := by
  simp only [Statement.write, writeClauses_eq]
  congr 1
  rcases resources with _ | _ | ⟨r, rs⟩
  · simp only [openTry, openBlock_eq, enclosed, bind_assoc, pure_bind, finishRow_plain]
  · rfl
  · simp only [openTry, openClause_none, clauseRow_eq, bind_assoc]
    rfl

namespace Statement

/-- A list around a conditional does not keep it from going on with the chain. -/
theorem write_unwrapped {e : Statement} (h : e.unwrapped.isConditional = true)
    (env : Environment) (writer : DeclarationWriter) (spot : Place) :
    e.write env writer spot = e.unwrapped.write env writer spot := by
  unfold unwrapped at h ⊢
  split
  · rw [write, if_pos h]
  · rfl

/-- Any other statement is written between `else` and the end of its block. -/
theorem write_placed {e : Statement} (h : e.unwrapped.isConditional = false)
    (env : Environment) (writer : DeclarationWriter) (spot : Place) :
    e.write env writer spot = placed env spot (e.write env writer .alone) := by
  cases e with
  | ifThen | ifElse => cases h
  | sequence statements =>
      rcases statements with _ | ⟨first, _ | ⟨second, rest⟩⟩
      · simp only [write, placed]
      · have hfirst : first.isConditional = false := h
        simp only [write, hfirst, Bool.false_eq_true, if_false, placed]
      · simp only [write, placed]
  | labelled label statement => cases statement <;> simp only [write, placed]
  | synchronized monitor body => cases body <;> simp only [write, placed]
  | _ => simp only [write, placed]

end Statement

end JavaFragments
