import JavaFragments.Fragmentation.Session
import JavaFragments.Proofs.Edits
import JavaFragments.Proofs.Parts

/-! # Bodies in a list of their own

A body that is no list may as well stand in a list of one element. `listed` puts such lists around
the bodies that a choice names, at any depth of a tree. The shape of an `if`, the chain of an `else`
and the length of what a loop body prints all look at that list in their own ways, and still the
tree is written as before. -/
set_option autoImplicit false

namespace JavaFragments

/-- Names positions in a tree, each by the indices of the parts on the way down to it. -/
abbrev Choice := List Nat → Bool

namespace Choice

/-- The choice below the part of an index. -/
def below (chosen : Choice) (index : Nat) : Choice := fun position => chosen (index :: position)

/-- Puts a list around the body at an index if it is chosen and no list. -/
def around (chosen : Choice) (index : Nat) (body : Statement) : Statement :=
  match body with
  | .sequence statements => .sequence statements
  | body => if chosen [index] then .sequence [body] else body

end Choice

mutual

/-- The tree with a list of one element around each chosen body. -/
def Statement.listed (chosen : Choice) : Statement → Statement
  | .doWhile condition body => .doWhile condition (listedBody chosen 0 body)
  | .forLoop declaration init condition update body =>
      .forLoop declaration init condition update (listedBody chosen 0 body)
  | .forEach type name e body => .forEach type name e (listedBody chosen 0 body)
  | .ifThen condition body => .ifThen condition (listedBody chosen 0 body)
  | .ifElse condition whenTrue whenFalse =>
      .ifElse condition (chosen.around 0 (whenTrue.listed (chosen.below 0)))
        (chosen.around 1 (whenFalse.listed (chosen.below 1)))
  | .labelled label statement => .labelled label (listedBody chosen 0 statement)
  | .sequence statements => .sequence (listedElements chosen 0 statements)
  | .switch condition blocks => .switch condition (listedBlocks chosen 0 blocks)
  | .synchronized monitor body => .synchronized monitor (listedBody chosen 0 body)
  | .tryCatch resources body catchClauses finallyBody =>
      .tryCatch resources (chosen.around 0 (body.listed (chosen.below 0)))
        (listedClauses chosen 1 catchClauses)
        (listedBody chosen (catchClauses.length + 1) finallyBody)
  | .whileLoop condition body => .whileLoop condition (listedBody chosen 0 body)
  | s => s

/-- A body that may be missing. -/
def listedBody (chosen : Choice) (index : Nat) : Option Statement → Option Statement
  | none => none
  | some body => some (chosen.around index (body.listed (chosen.below index)))

/-- The elements of a list are no bodies. -/
def listedElements (chosen : Choice) (index : Nat) : List Statement → List Statement
  | [] => []
  | statement :: rest =>
      statement.listed (chosen.below index) :: listedElements chosen (index + 1) rest

def SwitchBlock.listed (chosen : Choice) (index : Nat) : SwitchBlock → SwitchBlock
  | .label label body => .label label (chosen.around index (body.listed (chosen.below index)))
  | .multiLabels labels body =>
      .multiLabels labels (chosen.around index (body.listed (chosen.below index)))

def listedBlocks (chosen : Choice) (index : Nat) : List SwitchBlock → List SwitchBlock
  | [] => []
  | switchBlock :: rest =>
      switchBlock.listed chosen index :: listedBlocks chosen (index + 1) rest

def CatchClause.listed (chosen : Choice) (index : Nat) : CatchClause → CatchClause
  | ⟨type, otherTypes, name, lineNumber, body⟩ =>
      ⟨type, otherTypes, name, lineNumber,
        chosen.around index (body.listed (chosen.below index))⟩

def listedClauses (chosen : Choice) (index : Nat) : List CatchClause → List CatchClause
  | [] => []
  | catchClause :: rest =>
      catchClause.listed chosen index :: listedClauses chosen (index + 1) rest

end

namespace Statement
variable (chosen : Choice)

theorem length_listedElements (index : Nat) (statements : List Statement) :
    (listedElements chosen index statements).length = statements.length := by
  induction statements generalizing index with
  | nil => rw [listedElements]
  | cons s rest ih => rw [listedElements, List.length_cons, List.length_cons, ih]

theorem count_listed (s : Statement) : (s.listed chosen).count = s.count := by
  cases s with
  | sequence statements =>
      rw [listed]
      exact length_listedElements chosen 0 statements
  | _ => simp only [listed, count]

theorem isConditional_listed (s : Statement) :
    (s.listed chosen).isConditional = s.isConditional := by
  cases s <;> simp only [listed, isConditional]

theorem count_around (index : Nat) (body : Statement) :
    (chosen.around index body).count = body.count := by
  unfold Choice.around
  split
  · rfl
  · rename_i hlist
    split
    · cases body with
      | sequence statements => exact absurd rfl (hlist statements)
      | _ => rfl
    · rfl

/-- A statement that is no list is written in a list of one element as by itself. -/
theorem write_singleton {s : Statement} (h : ∀ statements, s ≠ .sequence statements)
    (env : Environment) (writer : DeclarationWriter) (spot : Place) :
    (sequence [s]).write env writer spot = s.write env writer spot := by
  by_cases hconditional : s.isConditional = true
  · exact write_unwrapped (e := .sequence [s]) hconditional env writer spot
  · rw [Bool.not_eq_true] at hconditional
    have hself : s.unwrapped = s := by
      cases s with
      | sequence statements => exact absurd rfl (h statements)
      | _ => rfl
    have halone : (sequence [s]).write env writer .alone = s.write env writer .alone := by
      simp only [write, hconditional, Bool.false_eq_true, if_false, Edit.placed]
    rw [write_placed (e := .sequence [s]) hconditional, halone,
      ← write_placed (by rw [hself]; exact hconditional)]

theorem write_around (index : Nat) (env : Environment) (writer : DeclarationWriter) (spot : Place)
    (body : Statement) :
    (chosen.around index body).write env writer spot = body.write env writer spot := by
  unfold Choice.around
  split
  · rfl
  · rename_i hlist
    split
    · exact write_singleton hlist env writer spot
    · rfl

end Statement

section Writing
variable (env : Environment) (writer : DeclarationWriter)

/-- The statement is written as before, whichever bodies below it are put in lists. -/
def Statement.WrittenAsListed (s : Statement) : Prop :=
  ∀ (chosen : Choice) (spot : Place),
    (s.listed chosen).write env writer spot = s.write env writer spot

variable {env writer}

/-- So is a body with a list around it. -/
theorem Statement.WrittenAsListed.around {s : Statement} (h : s.WrittenAsListed env writer)
    (chosen : Choice) (index : Nat) (spot : Place) :
    (chosen.around index (s.listed (chosen.below index))).write env writer spot =
      s.write env writer spot := by
  rw [Statement.write_around, h]

theorem writeBody_listed {body : Option Statement}
    (h : ∀ part ∈ body.toList, part.WrittenAsListed env writer) (chosen : Choice) (index : Nat) :
    writeBody env writer (listedBody chosen index body) = writeBody env writer body := by
  cases body with
  | none => rw [listedBody]
  | some body =>
      rw [listedBody, writeBody, writeBody]
      exact (h body (by simp)).around chosen index .alone

theorem writeFollowing_listed {statements : List Statement}
    (h : ∀ part ∈ statements, part.WrittenAsListed env writer) (chosen : Choice) (index : Nat) :
    writeFollowing env writer (listedElements chosen index statements) =
      writeFollowing env writer statements := by
  induction statements generalizing index with
  | nil => rw [listedElements]
  | cons s rest ih =>
      have hs := h s List.mem_cons_self (chosen.below index) .alone
      have hrest := ih (fun part hpart => h part (List.mem_cons_of_mem _ hpart)) (index + 1)
      rw [listedElements, writeFollowing, writeFollowing, hs, hrest]

theorem writeSwitchBlock_listed {block : SwitchBlock} (h : block.body.WrittenAsListed env writer)
    (chosen : Choice) (index : Nat) :
    (block.listed chosen index).write env writer = block.write env writer := by
  cases block with
  | label label body =>
      have hbody := h.around chosen index .alone
      rw [SwitchBlock.body] at hbody
      simp only [SwitchBlock.listed, SwitchBlock.write, hbody]
  | multiLabels labels body =>
      have hbody := h.around chosen index .alone
      rw [SwitchBlock.body] at hbody
      simp only [SwitchBlock.listed, SwitchBlock.write, hbody]

theorem writeSwitchBlocks_listed {blocks : List SwitchBlock}
    (h : ∀ part ∈ blocks.map SwitchBlock.body, part.WrittenAsListed env writer)
    (chosen : Choice) (index : Nat) :
    writeSwitchBlocks env writer (listedBlocks chosen index blocks) =
      writeSwitchBlocks env writer blocks := by
  induction blocks generalizing index with
  | nil => rw [listedBlocks]
  | cons block rest ih =>
      have hblock := writeSwitchBlock_listed (h block.body (by simp)) chosen index
      have hrest := ih (fun part hpart => h part (List.mem_cons_of_mem _ hpart)) (index + 1)
      cases rest with
      | nil => simp only [listedBlocks, writeSwitchBlocks, hblock]
      | cons next rest =>
          rw [listedBlocks] at hrest
          simp only [listedBlocks, writeSwitchBlocks, hblock, hrest]

theorem writeClauses_listed {catchClauses : List CatchClause}
    (h : ∀ part ∈ catchClauses.map CatchClause.body, part.WrittenAsListed env writer)
    (chosen : Choice) (index : Nat) (group : Group) (opened : OpenClause) :
    writeClauses env writer group opened (listedClauses chosen index catchClauses) =
      writeClauses env writer group opened catchClauses := by
  induction catchClauses generalizing index opened with
  | nil => rw [listedClauses]
  | cons c rest ih =>
      obtain ⟨type, otherTypes, name, lineNumber, body⟩ := c
      have hbody := (h body (by simp)).around chosen index .alone
      have hrest := ih (fun part hpart => h part (List.mem_cons_of_mem _ hpart)) (index + 1)
      simp only [listedClauses, CatchClause.listed, writeClauses, CatchClause.write, hbody, hrest]

theorem writeFinally_listed {finallyBody : Option Statement}
    (h : ∀ part ∈ finallyBody.toList, part.WrittenAsListed env writer)
    (chosen : Choice) (index : Nat) (group : Group) (opened : OpenClause) :
    writeFinally env writer group opened (listedBody chosen index finallyBody) =
      writeFinally env writer group opened finallyBody := by
  cases finallyBody with
  | none => rw [listedBody]
  | some body =>
      have hbody := (h body (by simp)).around chosen index .alone
      simp only [listedBody, writeFinally, hbody]

/-- Each kind of statement looks at the list around a body so that one element counts as none. -/
theorem write_listed (env : Environment) (writer : DeclarationWriter) (s : Statement) :
    s.WrittenAsListed env writer := by
  induction s using Statement.induction_on_parts with
  | step s h =>
  intro chosen spot
  cases s with
  | assertion | breakTo | continueTo | comment | byteCode | expression | lambdaExpression
  | localVariables | returnVoid | returnValue | throwing | typeDeclaration =>
      simp only [Statement.listed]
  | doWhile | forLoop | forEach | whileLoop =>
      have hbody := writeBody_listed h chosen 0
      simp only [Statement.listed, Statement.write, hbody]
  | ifThen condition body =>
      have hbody : writeBody env writer (listedBody chosen 0 body) = writeBody env writer body :=
        writeBody_listed h chosen 0
      cases spot with
      | elseOf group => simp only [Statement.listed, Statement.write, hbody]
      | alone =>
          cases body with
          | none => rw [Statement.listed, listedBody]
          | some b =>
              have hcount : (chosen.around 0 (b.listed (chosen.below 0))).count = b.count := by
                rw [Statement.count_around, Statement.count_listed]
              have hb := (h b (by simp [Statement.parts])).around chosen 0 .alone
              simp only [Statement.listed, listedBody, Statement.write, hcount, hb]
  | ifElse condition whenTrue whenFalse =>
      have htrue := (h whenTrue (by simp [Statement.parts])).around chosen 0
      have hfalse := (h whenFalse (by simp [Statement.parts])).around chosen 1
      cases spot <;> simp only [Statement.listed, Statement.write, htrue, hfalse]
  | labelled label statement =>
      cases statement with
      | none => rw [Statement.listed, listedBody]
      | some s =>
          have hs := (h s (by simp [Statement.parts])).around chosen 0
          simp only [Statement.listed, listedBody, Statement.write, hs]
  | sequence statements =>
      rcases statements with _ | ⟨first, _ | ⟨second, rest⟩⟩
      · rw [Statement.listed, listedElements]
      · have hs := h first (by simp [Statement.parts]) (chosen.below 0)
        simp only [Statement.listed, listedElements, Statement.write,
          Statement.isConditional_listed, hs]
      · have hs := h first (by simp [Statement.parts]) (chosen.below 0)
        have hrest := writeFollowing_listed
          (fun part hpart => h part (List.mem_cons_of_mem _ hpart)) chosen 1
        rw [listedElements] at hrest
        simp only [Statement.listed, listedElements, Statement.write, hs, hrest]
  | switch condition blocks =>
      have hblocks := writeSwitchBlocks_listed h chosen 0
      simp only [Statement.listed, Statement.write, hblocks]
  | synchronized monitor body =>
      cases body with
      | none => rw [Statement.listed, listedBody]
      | some s =>
          have hs := (h s (by simp [Statement.parts])).around chosen 0
          simp only [Statement.listed, listedBody, Statement.write, hs]
  | tryCatch resources body catchClauses finallyBody =>
      have hbody := (h body List.mem_cons_self).around chosen 0
      have hbehind : ∀ part ∈ catchClauses.map CatchClause.body ++ finallyBody.toList,
          part.WrittenAsListed env writer := fun part hpart => h part (List.mem_cons_of_mem _ hpart)
      rw [List.forall_mem_append] at hbehind
      have hclauses := writeClauses_listed hbehind.1 chosen 1
      have hfinally := writeFinally_listed hbehind.2 chosen (catchClauses.length + 1)
      simp only [Statement.listed, Statement.write, hbody, hclauses, hfinally]

end Writing

/-- A list around a lone body changes nothing: whichever bodies of a method are put in lists of one
element, the method has the same fragments with the same groups and imports, or the same error. -/
theorem fragmentBody_listed (chosen : Choice) (body : Statement) (env : Environment) :
    fragmentBody (body.listed chosen) env = fragmentBody body env := by
  have hsame : (Session.start env declarationHead).fragment (body.listed chosen) =
      (Session.start env declarationHead).fragment body := by
    unfold Session.fragment
    rw [write_listed _ _ body chosen .alone]
  rw [fragmentBody, fragmentBody, hsame]

example :
    (Statement.whileLoop .thisReference
        (some (.ifElse .nullLiteral .returnVoid .returnVoid))).listed (fun _ => true) =
      .whileLoop .thisReference
        (some (.sequence [.ifElse .nullLiteral (.sequence [.returnVoid])
          (.sequence [.returnVoid])])) :=
  rfl

end JavaFragments
