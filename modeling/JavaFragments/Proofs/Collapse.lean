import JavaFragments.Proofs.Balance
import JavaFragments.Proofs.Hollow

/-! # Bodies that collapse

A loop has no block, and the clause opened last in a `try` loses its own, just if the body is
hollow. `loopRun` and `tryRun` are what a loop and a `try` add to a session, with every body
written in the session that stands in front of it. -/
set_option autoImplicit false

namespace JavaFragments

open Edit

/-- The head and the body of a loop. -/
def Statement.loop? (env : Environment) : Statement → Option (Phrase × Option Statement)
  | .forLoop declaration init condition update body =>
      some (forHead env declaration init condition update, body)
  | .forEach type name e body => some (forEachHead env type name e, body)
  | .whileLoop condition body => some (guardHead env ["while"] condition, body)
  | _ => none

/-- The clauses of a `try` behind its first block, by their heads and bodies. -/
def tryClauses (env : Environment) (catchClauses : List CatchClause)
    (finallyBody : Option Statement) : List (Phrase × Statement) :=
  catchClauses.map (fun c => (catchHead env c.type c.otherTypes c.name c.lineNumber, c.body)) ++
    finallyBody.toList.map fun body => (.ofToken (.keyword "finally"), body)

namespace Session

/-- The session in which the body of a loop is written, with an empty sequence. -/
def inLoop (s : Session) (head : Phrase) : Session :=
  { s with toDraft := emptied s.environment head s.toDraft }

/-- The session in which the body of a clause is written, behind the start of its block. -/
def inClause (s : Session) (head : Phrase) (group : Group) : Session :=
  { s with toDraft := opened s.environment head group s.toDraft }

def behind (s : Session) (fragment : Fragment) : Session :=
  { s with toDraft := pushed s.toDraft fragment }

/-- The session behind the next free group number. -/
def behindGroup (s : Session) : Session :=
  { s with toDraft := (fresh s.toDraft).2 }

/-- The run of a loop. The body alone yields the fragments of an empty sequence. -/
def loopRun (s : Session) (head : Phrase) : Option Statement → List Fragment
  | none => [.tokens (head.tokens ++ [.semicolon])]
  | some body =>
      let alone := ((s.inLoop head).fragment body).1
      if body.Hollow then [.tokens (head.tokens ++ [.semicolon])]
      else
        .tokens head.tokens ::
          bracketed (if alone.fragments.length = 1 then .singleStatement else .statements)
            alone.sequence.allocated alone.fragments []

/-- The run of the clauses of one group. -/
def clauseRun (group : Group) : Session → List (Phrase × Statement) → List Fragment
  | _, [] => []
  | s, (head, body) :: rest =>
      let inside := s.inClause head group
      if rest.isEmpty = true ∧ body.Hollow then
        [.tokens (head.tokens ++ [.space, .emptyBraces])]
      else
        .tokens head.tokens ::
          bracketed .statements group (inside.addedBy body)
            (clauseRun group ((inside.fragment body).1.behind (.endBlock .statements group)) rest)

/-- The run of a `try`. A plain body has no head and is no clause. -/
def tryRun (s : Session) (resources : Option (List Resource)) (body : Statement)
    (catchClauses : List CatchClause) (finallyBody : Option Statement) : List Fragment :=
  let group := s.sequence.allocated
  let clauses := tryClauses s.environment catchClauses finallyBody
  match resources with
  | none =>
      let inside := s.behindGroup.behind (.startBlock .tryBody group)
      bracketed .tryBody group (inside.addedBy body)
        (clauseRun group ((inside.fragment body).1.behind (.endBlock .tryBody group)) clauses)
  | some resources =>
      clauseRun group s.behindGroup ((resourcesHead s.environment resources, body) :: clauses)

/-- What a statement adds is silent just if the statement is hollow. -/
theorem addedBy_grows {s : Session} (hwriter : s.writer.Appends) (t : Statement) :
    (s.fragment t).1.fragments = s.fragments ++ s.addedBy t ∧
      ((s.fragment t).2 = none → (s.addedBy t).isEmpty = t.isHollow) := by
  obtain ⟨run, mentioned, hyields, hadded, -⟩ := s.fragment_yields hwriter t
  rw [addedBy_eq hadded, hadded, ← t.isSilent_layout]
  exact ⟨rfl, hyields.isEmpty_eq⟩

/-- Written in the session, a statement that succeeds leaves the session behind it. -/
theorem write_of_ok {s : Session} {t : Statement} {after : Draft}
    (h : t.write s.environment s.writer .alone s.toDraft = (.ok (), after)) :
    s.fragment t = ({ s with toDraft := after }, none) := by
  rw [fragment, h]
  rfl

theorem fragment_ok {s : Session} {t : Statement} (h : (s.fragment t).2 = none) :
    ∃ after, t.write s.environment s.writer .alone s.toDraft = (.ok (), after) ∧
      s.fragment t = ({ s with toDraft := after }, none) := by
  rcases hrun : t.write s.environment s.writer .alone s.toDraft with ⟨e | _, after⟩
  · rw [fragment, hrun] at h
    cases h
  · exact ⟨after, rfl, write_of_ok hrun⟩

/-! ## Loops -/

theorem fragments_loopBody (head : List Token) (fragments : List Fragment) (draft : Draft) :
    (loopBody head fragments draft).2.fragments = draft.fragments ++
      if fragments.isEmpty then [.tokens (head ++ [.semicolon])]
      else .tokens head ::
        bracketed (loopKind fragments) draft.sequence.allocated fragments [] := by
  cases fragments with
  | nil => rfl
  | cons first rest =>
      rw [loopBody_of_ne_nil head (List.cons_ne_nil first rest)]
      rfl

theorem write_of_loop {t : Statement} {env : Environment} {head : Phrase}
    {body : Option Statement} (hloop : t.loop? env = some (head, body))
    (writer : DeclarationWriter) :
    t.write env writer .alone = loop env head (writeBody env writer body) := by
  cases t with
  | forLoop | forEach | whileLoop => cases hloop; rfl
  | _ => cases hloop

/-- A loop that succeeds writes the fragments that its body yields alone. -/
theorem fragments_loop_some {s : Session} {t body : Statement} {head : Phrase}
    (hloop : t.loop? s.environment = some (head, some body)) (hok : (s.fragment t).2 = none) :
    let alone := ((s.inLoop head).fragment body).1
    ((s.inLoop head).fragment body).2 = none ∧
      (s.fragment t).1.fragments =
        (loopBody head.tokens alone.fragments (restored s.toDraft alone.toDraft)).2.fragments := by
  obtain ⟨after, hrun, hfragment⟩ := fragment_ok hok
  rw [write_of_loop hloop, loop_apply, writeBody] at hrun
  rcases hbody : body.write s.environment s.writer .alone
    (emptied s.environment head s.toDraft) with ⟨e | _, inner⟩
  · rw [hbody] at hrun
    cases hrun
  · rw [hbody] at hrun
    have halone : (s.inLoop head).fragment body = ({ s with toDraft := inner }, none) :=
      write_of_ok hbody
    rw [halone, hfragment]
    exact ⟨rfl, (congrArg (fun outcome => outcome.2.fragments) hrun).symm⟩

/-- The body of a loop yields nothing just if it is hollow. -/
theorem fragments_inLoop {s : Session} (hwriter : s.writer.Appends) {head : Phrase}
    {body : Statement} (hok : ((s.inLoop head).fragment body).2 = none) :
    ((s.inLoop head).fragment body).1.fragments = [] ↔ body.Hollow := by
  obtain ⟨hadded, hsilent⟩ := (s.inLoop head).addedBy_grows hwriter body
  rw [hadded, ← Statement.isHollow_iff, ← hsilent hok, List.isEmpty_iff]
  rfl

theorem fragments_loop {s : Session} (hwriter : s.writer.Appends) {t : Statement} {head : Phrase}
    {body : Option Statement} (hloop : t.loop? s.environment = some (head, body))
    (hok : (s.fragment t).2 = none) :
    (s.fragment t).1.fragments = s.fragments ++ s.loopRun head body := by
  cases body with
  | none =>
      obtain ⟨after, hrun, hfragment⟩ := fragment_ok hok
      rw [write_of_loop hloop, loop_apply] at hrun
      rw [hfragment]
      cases hrun
      rfl
  | some body =>
      obtain ⟨hbody, hfragments⟩ := fragments_loop_some hloop hok
      have hhollow := fragments_inLoop hwriter hbody
      rw [hfragments, fragments_loopBody, fragments_restored, loopRun]
      simp only [List.isEmpty_iff, hhollow]
      rfl

/-! ## Clauses -/

/-- Each clause keeps its block, but for a last one with a hollow body. -/
theorem fragments_clauseRow {s : Session} (hwriter : s.writer.Appends) (group : Group)
    (clauses : List (Phrase × Statement)) {after : Draft}
    (hrun : clauseRow s.environment group
      (clauses.map fun row => (row.1, row.2.write s.environment s.writer .alone)) s.toDraft =
        (.ok (), after)) :
    after.fragments = s.fragments ++ clauseRun group s clauses := by
  induction clauses generalizing s with
  | nil =>
      cases hrun
      exact (List.append_nil _).symm
  | cons row rest ih =>
      obtain ⟨head, body⟩ := row
      rw [List.map_cons, clauseRow, bind_apply, clause_apply] at hrun
      rcases hbody : body.write s.environment s.writer .alone
        (opened s.environment head group s.toDraft) with ⟨e | _, inner⟩
      · rw [hbody] at hrun
        cases hrun
      · rw [hbody] at hrun
        have hinside : (s.inClause head group).fragment body =
            ({ s with toDraft := inner }, none) := write_of_ok hbody
        obtain ⟨hadded, hsilent⟩ := (s.inClause head group).addedBy_grows hwriter body
        rw [hinside] at hadded hsilent
        have hinner : inner.fragments = s.fragments ++
            [.tokens head.tokens, .startBlock .statements group] ++
              (s.inClause head group).addedBy body := hadded
        have hempty : (rest.map fun row => (row.1, row.2.write s.environment s.writer
            .alone)).isEmpty = true ∧ s.fragments.length + 2 = inner.fragments.length ↔
              rest.isEmpty = true ∧ body.Hollow := by
          rw [List.isEmpty_map, ← Statement.isHollow_iff, ← hsilent rfl, hinner]
          refine and_congr_right fun _ => ?_
          rw [List.isEmpty_iff_length_eq_zero]
          simp only [List.length_append, List.length_cons, List.length_nil]
          omega
        by_cases hlost : rest.isEmpty = true ∧ body.Hollow
        · obtain rfl := List.isEmpty_iff.1 hlost.1
          rw [clauseRun, if_pos hlost]
          dsimp only at hrun
          rw [if_pos (hempty.2 hlost)] at hrun
          cases hrun
          rw [fragments_retracted, hinner, List.append_assoc, List.take_left]
        · rw [clauseRun, if_neg hlost, hinside]
          dsimp only at hrun
          rw [if_neg (fun h => hlost (hempty.1 h))] at hrun
          have hbehind := @ih ({ s with toDraft := inner }.behind (.endBlock .statements group))
            hwriter hrun
          rw [hbehind]
          show inner.fragments ++ [.endBlock .statements group] ++ _ = _
          rw [hinner]
          simp [bracketed]

/-- A body between the start and the end of a block, in the session behind the start. -/
theorem fragments_enclosed {s : Session} (hwriter : s.writer.Appends) {kind : BlockKind}
    {group : Group} {body : Statement} {after : Draft}
    (hrun : enclosed kind group (body.write s.environment s.writer .alone) s.toDraft =
      (.ok (), after)) :
    let inside := s.behind (.startBlock kind group)
    let closed := (inside.fragment body).1.behind (.endBlock kind group)
    closed.toDraft = after ∧
      closed.fragments = s.fragments ++ bracketed kind group (inside.addedBy body) [] := by
  intro inside closed
  have hstart : pushed s.toDraft (.startBlock kind group) = inside.toDraft := rfl
  rw [enclosed_apply, hstart] at hrun
  rcases hbody : body.write s.environment s.writer .alone inside.toDraft with ⟨e | _, inner⟩
  · rw [hbody] at hrun
    cases hrun
  · rw [hbody] at hrun
    cases hrun
    have hinside : inside.fragment body = ({ s with toDraft := inner }, none) := write_of_ok hbody
    have hadded := (inside.addedBy_grows hwriter body).1
    rw [hinside] at hadded
    have hinner : inner.fragments =
        s.fragments ++ [.startBlock kind group] ++ inside.addedBy body := hadded
    have hclosed : closed = { s with toDraft := inner }.behind (.endBlock kind group) :=
      congrArg (fun outcome => outcome.1.behind (.endBlock kind group)) hinside
    rw [hclosed]
    refine ⟨rfl, ?_⟩
    show inner.fragments ++ [.endBlock kind group] = _
    rw [hinner]
    simp [bracketed]

theorem fragments_tryCatch {s : Session} (hwriter : s.writer.Appends)
    {resources : Option (List Resource)} {body : Statement} {catchClauses : List CatchClause}
    {finallyBody : Option Statement}
    (hok : (s.fragment (.tryCatch resources body catchClauses finallyBody)).2 = none) :
    (s.fragment (.tryCatch resources body catchClauses finallyBody)).1.fragments =
      s.fragments ++ s.tryRun resources body catchClauses finallyBody := by
  obtain ⟨after, hrun, hfragment⟩ := fragment_ok hok
  have hrows : clauseRows s.environment s.writer catchClauses finallyBody =
      (tryClauses s.environment catchClauses finallyBody).map fun row =>
        (row.1, row.2.write s.environment s.writer .alone) := by
    rw [clauseRows, tryClauses, List.map_append, List.map_map, List.map_map]
    rfl
  rw [write_tryCatch] at hrun
  dsimp only at hrun
  rw [hrows] at hrun
  rw [hfragment]
  show after.fragments = _
  rcases resources with _ | ⟨_ | ⟨r, rs⟩⟩
  · have hsteps : (enclosed .tryBody s.sequence.allocated
        (body.write s.environment s.writer .alone) >>= fun _ =>
          clauseRow s.environment s.sequence.allocated
            ((tryClauses s.environment catchClauses finallyBody).map fun row =>
              (row.1, row.2.write s.environment s.writer .alone)))
                s.behindGroup.toDraft = (.ok (), after) := hrun
    rw [bind_apply] at hsteps
    rcases hfirst : enclosed .tryBody s.sequence.allocated
      (body.write s.environment s.writer .alone) s.behindGroup.toDraft with ⟨e | _, first⟩
    · rw [hfirst] at hsteps
      cases hsteps
    · rw [hfirst] at hsteps
      let inside := s.behindGroup.behind (.startBlock .tryBody s.sequence.allocated)
      let closed := (inside.fragment body).1.behind (.endBlock .tryBody s.sequence.allocated)
      let clauses := tryClauses s.environment catchClauses finallyBody
      obtain ⟨hdraft, hblock⟩ := fragments_enclosed (s := s.behindGroup) hwriter hfirst
      rw [← hdraft] at hsteps
      have hclauses := fragments_clauseRow (s := closed) hwriter _ clauses hsteps
      have hplain : closed.fragments = s.fragments ++
          bracketed .tryBody s.sequence.allocated (inside.addedBy body) [] := hblock
      have htry : s.tryRun none body catchClauses finallyBody =
          bracketed .tryBody s.sequence.allocated (inside.addedBy body)
            (clauseRun s.sequence.allocated closed clauses) := rfl
      rw [hclauses, hplain, htry]
      simp [bracketed]
  · cases hrun
  · exact fragments_clauseRow (s := s.behindGroup) hwriter s.sequence.allocated
      ((resourcesHead s.environment (r :: rs), body) ::
        tryClauses s.environment catchClauses finallyBody) hrun

end Session

/-- Bodies collapse exactly where they hold nothing. A statement that succeeds appends no fragment
just if it is hollow, a loop just then has a semicolon in the place of a block, and of a `try` just
the clause opened last shrinks to its head and braces. What stands in front of it stays. -/
theorem hollow_bodies_collapse {s : Session} (hwriter : s.writer.Appends) :
    (∀ t, (s.fragment t).1.fragments = s.fragments ++ s.addedBy t ∧
      ((s.fragment t).2 = none → (s.addedBy t = [] ↔ t.Hollow))) ∧
    (∀ t head body, t.loop? s.environment = some (head, body) → (s.fragment t).2 = none →
      (s.fragment t).1.fragments = s.fragments ++ s.loopRun head body ∧
        ∀ b ∈ body, (((s.inLoop head).fragment b).1.fragments = [] ↔ b.Hollow)) ∧
    ∀ resources body catchClauses finallyBody,
      (s.fragment (.tryCatch resources body catchClauses finallyBody)).2 = none →
      (s.fragment (.tryCatch resources body catchClauses finallyBody)).1.fragments =
        s.fragments ++ s.tryRun resources body catchClauses finallyBody := by
  refine ⟨fun t => ⟨(s.addedBy_grows hwriter t).1, fun hok => ?_⟩, ?_, ?_⟩
  · rw [← Statement.isHollow_iff, ← (s.addedBy_grows hwriter t).2 hok, List.isEmpty_iff]
  · intro t head body hloop hok
    refine ⟨Session.fragments_loop hwriter hloop hok, ?_⟩
    intro b hb
    obtain rfl := Option.mem_def.1 hb
    exact Session.fragments_inLoop hwriter (Session.fragments_loop_some hloop hok).1
  · intro resources body catchClauses finallyBody hok
    exact Session.fragments_tryCatch hwriter hok

/-- In an open block: a tower, a loop around a `try` that shrinks to its resources, and a `try` that
keeps an empty `catch` in front of a `finally`. -/
theorem hollow_bodies_collapse_in_open_block :
    let s : Session :=
      ⟨⟨⟨[.startBlock .doWhile 4], 5⟩, .empty, []⟩, ⟨"Main"⟩, declarationHead.writer⟩
    let lock := Statement.tryCatch (some [⟨.ofInternalName "Lock", "l", .thisReference, none⟩])
      (.tower 1) [] none
    s.writer.Appends ∧ s.addedBy (.tower 2) = [] ∧
      (s.fragment (.whileLoop .thisReference (some lock))).1.fragments =
        s.fragments ++
          [.tokens [.keyword "while", .space, .startBlock .parameters, .keyword "this",
              .endBlock .parameters],
            .startBlock .singleStatement 6,
            .tokens [.keyword "try", .space, .startBlock .resources,
              .reference "Lock" "Lock" (some "Main"), .space, .text "l", .spaceEqualSpace,
              .keyword "this", .endBlock .resources, .space, .emptyBraces],
            .endBlock .singleStatement 6] ∧
      (s.fragment (.tryCatch none (.sequence [])
        [⟨.ofInternalName "Error", [], "e", none, .sequence []⟩] (some .returnVoid))).1.fragments =
        s.fragments ++ [.startBlock .tryBody 5, .endBlock .tryBody 5,
          .tokens [.keyword "catch", .spaceOpenBracket, .reference "Error" "Error" (some "Main"),
            .space, .text "e", .closeBracket],
          .startBlock .statements 5, .endBlock .statements 5,
          .tokens [.keyword "finally"], .startBlock .statements 5,
          .tokens [.keyword "return", .semicolon], .endBlock .statements 5] := by
  intro s lock
  have hwriter : s.writer.Appends := declarationHead.writer_appends
  obtain ⟨hadded, hloop, htry⟩ := hollow_bodies_collapse hwriter
  refine ⟨hwriter, ((hadded (.tower 2)).2 rfl).2 ⟨2, rfl⟩, ?_, ?_⟩
  · exact (hloop (.whileLoop .thisReference (some lock))
      (guardHead ⟨"Main"⟩ ["while"] .thisReference) (some lock) rfl rfl).1
  · exact htry _ _ _ _ rfl

end JavaFragments
