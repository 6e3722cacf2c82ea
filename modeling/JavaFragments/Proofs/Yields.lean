import JavaFragments.Fragmentation.Session
import JavaFragments.Proofs.Grouped
import JavaFragments.Proofs.Layouts

/-! # What a layout yields

`Yields` relates a layout and the next free group number to the run of fragments that the layout
adds, the class types it mentions, the number that is free behind it and the error it may end with.
The relation does not look at the fragments in front of the run. Whatever is written for a statement
is a yield of its layout, by `isYielded`, so what holds of every yield holds of what a session does.
Facts about that are proved by induction over the rules. -/
set_option autoImplicit false

namespace JavaFragments

/-- Leaves the fragments in front of a declaration alone. -/
def DeclarationWriter.Appends (writer : DeclarationWriter) : Prop :=
  ∀ declaration env fragments, ∃ run, writer declaration env fragments = fragments ++ run

theorem DeclarationPrinter.writer_appends (printer : DeclarationPrinter) :
    printer.writer.Appends :=
  fun declaration env _ => ⟨printer declaration env, rfl⟩

theorem DeclarationPrinter.run_eq (printer : DeclarationPrinter) {declaration : TypeDeclaration}
    {env : Environment} {front run : List Fragment}
    (h : printer.writer declaration env front = front ++ run) : run = printer declaration env :=
  (List.append_cancel_left h).symm

/-- The group behind whose blocks a layout stands. -/
def Scope.outer (group : Group) : Scope → Option Group
  | .own => none
  | .row => some group

/-- The head of a block that has shrunk to it. -/
def shrunk (head : Phrase) : List Fragment :=
  [.tokens (head.tokens ++ [.space, .emptyBraces])]

/-- The block around the body of a loop. -/
def loopKind (body : List Fragment) : BlockKind :=
  if body.length = 1 then .singleStatement else .statements

namespace Layout

-- A block takes its number before its body, and a loop behind it.
inductive Yields (env : Environment) (writer : DeclarationWriter) :
    {scope : Scope} → Layout scope → Option Group → Group → List Fragment → List ClassType →
      Group → Option FragmentationError → Prop where
  | nothing {low : Group} : Yields env writer .nothing none low [] [] low none
  | said (head : Head) {low : Group} :
      Yields env writer (.said head) none low [.tokens (head.phrase env).tokens]
        (head.phrase env).mentioned low none
  | spacer (kind : Spacer) {low : Group} :
      Yields env writer (.spacer kind) none low [.spacer kind] [] low none
  | reported (event : Event) {low : Group} :
      Yields env writer (.reported event) none low [] [] low none
  | declared (declaration : TypeDeclaration) {low : Group} {front run : List Fragment}
      (hrun : writer declaration env front = front ++ run) :
      Yields env writer (.declared declaration) none low (run ++ [.tokens [.semicolon]]) [] low none
  | part {s : Statement} {low high : Group} {run : List Fragment} {mentioned : List ClassType}
      {failure : Option FragmentationError}
      (hpart : Yields env writer s.layout none low run mentioned high failure) :
      Yields env writer (.part s) none low run mentioned high failure
  | both {first second : Layout .own} {low middle high : Group} {front back : List Fragment}
      {mentioned mentioned' : List ClassType} {failure : Option FragmentationError}
      (hfirst : Yields env writer first none low front mentioned middle none)
      (hsecond : Yields env writer second none middle back mentioned' high failure) :
      Yields env writer (.both first second) none low (front ++ back) (mentioned ++ mentioned')
        high failure
  | stopped {first second : Layout .own} {low high : Group} {run : List Fragment}
      {mentioned : List ClassType} {e : FragmentationError}
      (hfirst : Yields env writer first none low run mentioned high (some e)) :
      Yields env writer (.both first second) none low run mentioned high (some e)
  | emptyLoop {head : LoopHead} {body : Layout .own} {low high : Group}
      {mentioned : List ClassType}
      (hbody : Yields env writer body none low [] mentioned high none) :
      Yields env writer (.loop head body) none low
        [.tokens ((head.phrase env).tokens ++ [.semicolon])]
        ((head.phrase env).mentioned ++ mentioned) high none
  | loop {head : LoopHead} {body : Layout .own} {low high : Group} {inner : List Fragment}
      {mentioned : List ClassType}
      (hbody : Yields env writer body none low inner mentioned high none) (hinner : inner ≠ []) :
      Yields env writer (.loop head body) none low
        (.tokens (head.phrase env).tokens :: bracketed (loopKind inner) high inner [])
        ((head.phrase env).mentioned ++ mentioned) (high + 1) none
  | failedLoop {head : LoopHead} {body : Layout .own} {low high : Group} {inner : List Fragment}
      {mentioned : List ClassType} {e : FragmentationError}
      (hbody : Yields env writer body none low inner mentioned high (some e)) :
      Yields env writer (.loop head body) none low [] ((head.phrase env).mentioned ++ mentioned)
        high (some e)
  | block {kind : BlockKind} {body : Layout .own} {rest : Layout .row} {low middle high : Group}
      {inner clauses : List Fragment} {mentioned mentioned' : List ClassType}
      {failure : Option FragmentationError}
      (hbody : Yields env writer body none (low + 1) inner mentioned middle none)
      (hrest : Yields env writer rest (some low) middle clauses mentioned' high failure) :
      Yields env writer (.block kind body rest) none low (bracketed kind low inner clauses)
        (mentioned ++ mentioned') high failure
  | failedBlock {kind : BlockKind} {body : Layout .own} {rest : Layout .row} {low high : Group}
      {inner : List Fragment} {mentioned : List ClassType} {e : FragmentationError}
      (hbody : Yields env writer body none (low + 1) inner mentioned high (some e)) :
      Yields env writer (.block kind body rest) none low (.startBlock kind low :: inner) mentioned
        high (some e)
  | attempt {resource : Resource} {resources : List Resource} {body : Statement}
      {rest : Layout .row} {low middle high : Group} {inner clauses : List Fragment}
      {mentioned mentioned' : List ClassType} {failure : Option FragmentationError}
      (hbody : Yields env writer body.layout none (low + 1) inner mentioned middle none)
      (hkept : (rest.isDone && inner.isEmpty) = false)
      (hrest : Yields env writer rest (some low) middle clauses mentioned' high failure) :
      Yields env writer (.attempt (resource :: resources) body rest) none low
        (.tokens (resourcesHead env (resource :: resources)).tokens ::
          bracketed .statements low inner clauses)
        ((resourcesHead env (resource :: resources)).mentioned ++ mentioned ++ mentioned') high
        failure
  | emptyAttempt {resource : Resource} {resources : List Resource} {body : Statement}
      {low high : Group} {mentioned : List ClassType}
      (hbody : Yields env writer body.layout none (low + 1) [] mentioned high none) :
      Yields env writer (.attempt (resource :: resources) body .done) none low
        (shrunk (resourcesHead env (resource :: resources)))
        ((resourcesHead env (resource :: resources)).mentioned ++ mentioned) high none
  | failedAttempt {resource : Resource} {resources : List Resource} {body : Statement}
      {rest : Layout .row} {low high : Group} {inner : List Fragment}
      {mentioned : List ClassType} {e : FragmentationError}
      (hbody : Yields env writer body.layout none (low + 1) inner mentioned high (some e)) :
      Yields env writer (.attempt (resource :: resources) body rest) none low
        (.tokens (resourcesHead env (resource :: resources)).tokens ::
          .startBlock .statements low :: inner)
        ((resourcesHead env (resource :: resources)).mentioned ++ mentioned) high (some e)
  | noResources {body : Statement} {rest : Layout .row} {low : Group} :
      Yields env writer (.attempt [] body rest) none low [] [] low (some .emptyResourceList)
  | done {group low : Group} : Yields env writer .done (some group) low [] [] low none
  | clause {head : ClauseHead} {body : Layout .own} {rest : Layout .row}
      {group low middle high : Group} {inner clauses : List Fragment}
      {mentioned mentioned' : List ClassType} {failure : Option FragmentationError}
      (hbody : Yields env writer body none low inner mentioned middle none)
      (hkept : (head.isRetractable && rest.isDone && inner.isEmpty) = false)
      (hrest : Yields env writer rest (some group) middle clauses mentioned' high failure) :
      Yields env writer (.clause head body rest) (some group) low
        (.tokens (head.phrase env).tokens :: bracketed .statements group inner clauses)
        ((head.phrase env).mentioned ++ mentioned ++ mentioned') high failure
  | emptyClause {head : ClauseHead} {body : Layout .own} {group low high : Group}
      {mentioned : List ClassType} (hhead : head.isRetractable = true)
      (hbody : Yields env writer body none low [] mentioned high none) :
      Yields env writer (.clause head body .done) (some group) low (shrunk (head.phrase env))
        ((head.phrase env).mentioned ++ mentioned) high none
  | failedClause {head : ClauseHead} {body : Layout .own} {rest : Layout .row}
      {group low high : Group} {inner : List Fragment} {mentioned : List ClassType}
      {e : FragmentationError}
      (hbody : Yields env writer body none low inner mentioned high (some e)) :
      Yields env writer (.clause head body rest) (some group) low
        (.tokens (head.phrase env).tokens :: .startBlock .statements group :: inner)
        ((head.phrase env).mentioned ++ mentioned) high (some e)
  | branch {s : Statement} {group low high : Group} {run : List Fragment}
      {mentioned : List ClassType} {failure : Option FragmentationError}
      (hbranch : Yields env writer s.branchLayout (some group) low run mentioned high failure) :
      Yields env writer (.branch s) (some group) low run mentioned high failure

end Layout

/-! ## What an edit records -/

namespace Edit

/-- What an edit has done to a draft, and how it has ended. -/
structure Records (env : Environment) (draft : Draft)
    (outcome : Except FragmentationError Unit × Draft) (run : List Fragment)
    (mentioned : List ClassType) (high : Group) (failure : Option FragmentationError) : Prop where
  ended : failure? outcome.1 = failure
  fragments : outcome.2.fragments = draft.fragments ++ run
  allocated : outcome.2.sequence.allocated = high
  imports : outcome.2.imports = draft.imports.insertAll mentioned env

section Records
variable {env : Environment} {draft : Draft} {edit next : Edit Unit} {run run' : List Fragment}
  {mentioned mentioned' : List ClassType} {middle high : Group}
  {failure : Option FragmentationError} {e : FragmentationError}
  {outcome : Except FragmentationError Unit × Draft}

theorem Records.succeeded (h : Records env draft outcome run mentioned high none) :
    ∃ after : Draft, outcome = (.ok (), after) ∧ after.fragments = draft.fragments ++ run ∧
      after.sequence.allocated = high ∧ after.imports = draft.imports.insertAll mentioned env := by
  obtain ⟨e | _, after⟩ := outcome
  · cases h.ended
  · exact ⟨after, rfl, h.fragments, h.allocated, h.imports⟩

theorem Records.failed (h : Records env draft outcome run mentioned high (some e)) :
    ∃ after : Draft, outcome = (.error e, after) ∧ after.fragments = draft.fragments ++ run ∧
      after.sequence.allocated = high ∧ after.imports = draft.imports.insertAll mentioned env := by
  obtain ⟨e' | _, after⟩ := outcome
  · obtain rfl : e' = e := Option.some.inj h.ended
    exact ⟨after, rfl, h.fragments, h.allocated, h.imports⟩
  · cases h.ended

/-- The next edit goes on where one ends well. -/
theorem Records.then (h : Records env draft (edit draft) run mentioned middle none)
    (hnext : Records env (edit draft).2 (next (edit draft).2) run' mentioned' high failure) :
    Records env draft ((do edit; next) draft) (run ++ run') (mentioned ++ mentioned') high
      failure := by
  obtain ⟨after, hedit, hfragments, -, himports⟩ := h.succeeded
  have hbind := bind_apply edit (fun _ => next) draft
  rw [hedit] at hbind hnext
  obtain ⟨hended, hfragments', hallocated, himports'⟩ := hnext
  rw [hbind]
  refine ⟨hended, ?_, hallocated, ?_⟩
  · rw [hfragments', hfragments, List.append_assoc]
  · rw [himports', himports, Imports.insertAll_append]

theorem Records.stop (h : Records env draft (edit draft) run mentioned high (some e)) :
    Records env draft ((do edit; next) draft) run mentioned high (some e) := by
  obtain ⟨after, hedit, hfragments, hallocated, himports⟩ := h.failed
  have hbind := bind_apply edit (fun _ => next) draft
  rw [hedit] at hbind
  rw [hbind]
  exact ⟨rfl, hfragments, hallocated, himports⟩

/-- A number is taken, and the fragments stay. -/
theorem Records.fresh {next : Group → Edit Unit} {numbered : Draft}
    (hnumbered : numbered = { draft with
      sequence := ⟨draft.fragments, draft.sequence.allocated + 1⟩ })
    (h : Records env numbered (next draft.sequence.allocated numbered) run mentioned high failure) :
    Records env draft ((fresh >>= next) draft) run mentioned high failure := by
  subst hnumbered
  obtain ⟨hended, hfragments, hallocated, himports⟩ := h
  exact ⟨hended, hfragments, hallocated, himports⟩

section Blocks
variable {kind : BlockKind} {group : Group}

theorem Records.enclosed (h : Records env (pushed draft (.startBlock kind group))
    (edit (pushed draft (.startBlock kind group))) run mentioned high none) :
    Records env draft (enclosed kind group edit draft) (bracketed kind group run []) mentioned high
      none := by
  obtain ⟨after, hedit, hfragments, hallocated, himports⟩ := h.succeeded
  rw [enclosed_apply, hedit]
  refine ⟨rfl, ?_, hallocated, himports⟩
  rw [fragments_pushed, hfragments, fragments_pushed]
  simp [bracketed]

theorem Records.failedBlock (h : Records env (pushed draft (.startBlock kind group))
    (edit (pushed draft (.startBlock kind group))) run mentioned high (some e)) :
    Records env draft (Edit.enclosed kind group edit draft) (.startBlock kind group :: run)
      mentioned high (some e) := by
  obtain ⟨after, hedit, hfragments, hallocated, himports⟩ := h.failed
  rw [enclosed_apply, hedit]
  refine ⟨rfl, ?_, hallocated, himports⟩
  rw [hfragments, fragments_pushed, List.append_assoc]
  rfl

end Blocks

/-! The body of a loop is written apart, and its fragments come with the block around them. -/

theorem loopBody_of_ne_nil (head : List Token) {fragments : List Fragment} (h : fragments ≠ [])
    (draft : Draft) :
    loopBody head fragments draft = (.ok (), { draft with
      sequence := ⟨draft.fragments ++ .tokens head ::
        bracketed (loopKind fragments) draft.sequence.allocated fragments [],
        draft.sequence.allocated + 1⟩ }) := by
  have hblock : ∀ kind, (do push (.tokens head); inBlock kind (append fragments) : Edit Unit)
      draft = (.ok (), { draft with
        sequence := ⟨draft.fragments ++ .tokens head ::
          bracketed kind draft.sequence.allocated fragments [],
          draft.sequence.allocated + 1⟩ }) := by
    intro kind
    show (Except.ok (), ({ draft with
      sequence := ⟨draft.fragments ++ [.tokens head] ++
        [.startBlock kind draft.sequence.allocated] ++ fragments ++
          [.endBlock kind draft.sequence.allocated], draft.sequence.allocated + 1⟩ } : Draft)) = _
    simp [bracketed]
  rcases fragments with _ | ⟨first, _ | ⟨second, rest⟩⟩
  · exact absurd rfl h
  · exact hblock .singleStatement
  · have hkind : loopKind (first :: second :: rest) = .statements := if_neg (by simp)
    rw [hkind]
    exact hblock .statements

section Loops
variable {head : Phrase}

theorem Records.loop (h : Records env (emptied env head draft)
    (edit (emptied env head draft)) run mentioned high none) (hrun : run ≠ []) :
    Records env draft (loop env head edit draft)
      (.tokens head.tokens :: bracketed (loopKind run) high run []) (head.mentioned ++ mentioned)
      (high + 1) none := by
  obtain ⟨after, hedit, hfragments, hallocated, himports⟩ := h.succeeded
  have hinner : after.fragments = run := hfragments
  rw [loop_apply, hedit, ← hallocated]
  dsimp only
  rw [hinner, loopBody_of_ne_nil _ hrun]
  refine ⟨rfl, rfl, rfl, ?_⟩
  rw [Imports.insertAll_append]
  exact himports

theorem Records.emptyLoop (h : Records env (emptied env head draft)
    (edit (emptied env head draft)) [] mentioned high none) :
    Records env draft (Edit.loop env head edit draft) [.tokens (head.tokens ++ [.semicolon])]
      (head.mentioned ++ mentioned) high none := by
  obtain ⟨after, hedit, hfragments, hallocated, himports⟩ := h.succeeded
  have hempty : after.fragments = [] := hfragments
  rw [loop_apply, hedit]
  dsimp only
  rw [hempty]
  refine ⟨rfl, rfl, hallocated, ?_⟩
  rw [Imports.insertAll_append]
  exact himports

theorem Records.failedLoop (h : Records env (emptied env head draft)
    (edit (emptied env head draft)) run mentioned high (some e)) :
    Records env draft (Edit.loop env head edit draft) [] (head.mentioned ++ mentioned) high
      (some e) := by
  obtain ⟨after, hedit, -, hallocated, himports⟩ := h.failed
  rw [loop_apply, hedit]
  refine ⟨rfl, (List.append_nil _).symm, hallocated, ?_⟩
  rw [Imports.insertAll_append]
  exact himports

end Loops

section Clauses
variable {head : Phrase} {group : Group} {last : Bool}

theorem Records.clause (h : Records env (opened env head group draft)
    (edit (opened env head group draft)) run mentioned high none)
    (hkept : (last && run.isEmpty) = false) :
    Records env draft (clause env head group last edit draft)
      (.tokens head.tokens :: bracketed .statements group run []) (head.mentioned ++ mentioned)
      high none := by
  obtain ⟨after, hedit, hfragments, hallocated, himports⟩ := h.succeeded
  rw [fragments_opened, List.append_assoc] at hfragments
  have hlong : ¬ (last = true ∧ draft.fragments.length + 2 = after.fragments.length) := by
    rintro ⟨rfl, hlength⟩
    have hempty : run = [] := by
      rw [← List.length_eq_zero_iff]
      simp only [hfragments, List.length_append, List.length_cons, List.length_nil] at hlength
      omega
    rw [hempty] at hkept
    cases hkept
  rw [clause_apply, hedit]
  dsimp only
  rw [if_neg hlong]
  refine ⟨rfl, ?_, hallocated, ?_⟩
  · rw [fragments_pushed, hfragments]
    simp [bracketed]
  · rw [Imports.insertAll_append]
    exact himports

theorem Records.shrunkClause (h : Records env (opened env head group draft)
    (edit (opened env head group draft)) [] mentioned high none) :
    Records env draft (Edit.clause env head group true edit draft) (shrunk head)
      (head.mentioned ++ mentioned) high none := by
  obtain ⟨after, hedit, hfragments, hallocated, himports⟩ := h.succeeded
  rw [fragments_opened, List.append_nil] at hfragments
  have hlength : draft.fragments.length + 2 = after.fragments.length := by simp [hfragments]
  rw [clause_apply, hedit]
  dsimp only
  rw [if_pos ⟨rfl, hlength⟩]
  refine ⟨rfl, ?_, hallocated, ?_⟩
  · rw [fragments_retracted, hfragments, List.take_left]
    rfl
  · rw [Imports.insertAll_append]
    exact himports

theorem Records.failedClause (h : Records env (opened env head group draft)
    (edit (opened env head group draft)) run mentioned high (some e)) :
    Records env draft (Edit.clause env head group last edit draft)
      (.tokens head.tokens :: .startBlock .statements group :: run) (head.mentioned ++ mentioned)
      high (some e) := by
  obtain ⟨after, hedit, hfragments, hallocated, himports⟩ := h.failed
  rw [fragments_opened, List.append_assoc] at hfragments
  rw [clause_apply, hedit]
  refine ⟨rfl, hfragments, hallocated, ?_⟩
  rw [Imports.insertAll_append]
  exact himports

end Clauses

end Records

end Edit

open Edit

namespace Layout

theorem eq_done_of_isDone {rest : Layout .row} (h : rest.isDone = true) : rest = .done := by
  cases rest with
  | done => rfl
  | clause | branch => cases h

/-- Whatever the draft, what is written for the layout is one of its yields. -/
def IsYielded (env : Environment) (writer : DeclarationWriter) {scope : Scope}
    (layout : Layout scope) : Prop :=
  ∀ (group : Group) (draft : Draft), ∃ run mentioned high failure,
    layout.Yields env writer (scope.outer group) draft.sequence.allocated run mentioned high
      failure ∧
      Records env draft (layout.write env writer group draft) run mentioned high failure

section Steps
variable {env : Environment} {writer : DeclarationWriter}

theorem IsYielded.both {first second : Layout .own} (hfirst : first.IsYielded env writer)
    (hsecond : second.IsYielded env writer) : (both first second).IsYielded env writer := by
  intro group draft
  rw [write]
  obtain ⟨front, mentioned, middle, _ | e, hyields, hrecords⟩ := hfirst group draft
  · obtain ⟨back, mentioned', high, failure, hyields', hrecords'⟩ :=
      hsecond group (first.write env writer group draft).2
    rw [hrecords.allocated] at hyields'
    exact ⟨_, _, _, _, .both hyields hyields', hrecords.then hrecords'⟩
  · exact ⟨_, _, _, _, .stopped hyields, hrecords.stop⟩

theorem IsYielded.loop {body : Layout .own} (hbody : body.IsYielded env writer)
    (head : LoopHead) : (loop head body).IsYielded env writer := by
  intro group draft
  rw [write]
  obtain ⟨inner, mentioned, high, _ | e, hyields, hrecords⟩ :=
    hbody group (emptied env (head.phrase env) draft)
  · by_cases hinner : inner = []
    · subst hinner
      exact ⟨_, _, _, _, .emptyLoop hyields, hrecords.emptyLoop⟩
    · exact ⟨_, _, _, _, .loop hyields hinner, hrecords.loop hinner⟩
  · exact ⟨_, _, _, _, .failedLoop hyields, hrecords.failedLoop⟩

theorem IsYielded.block {body : Layout .own} {rest : Layout .row}
    (hbody : body.IsYielded env writer) (hrest : rest.IsYielded env writer) (kind : BlockKind) :
    (block kind body rest).IsYielded env writer := by
  intro group draft
  let number := draft.sequence.allocated
  let numbered : Draft := { draft with sequence := ⟨draft.fragments, number + 1⟩ }
  rw [write]
  obtain ⟨inner, mentioned, middle, _ | e, hyields, hrecords⟩ :=
    hbody number (pushed numbered (.startBlock kind number))
  · have hblock := hrecords.enclosed
    obtain ⟨clauses, mentioned', high, failure, hyields', hrecords'⟩ := hrest number
      (enclosed kind number (body.write env writer number) numbered).2
    rw [hblock.allocated] at hyields'
    have hrow := hblock.then hrecords'
    rw [bracketed_append, List.nil_append] at hrow
    exact ⟨_, _, _, _, .block hyields hyields', hrow.fresh rfl⟩
  · exact ⟨_, _, _, _, .failedBlock hyields, hrecords.failedBlock.stop.fresh rfl⟩

/-- A head with its block, in front of the rest of the group. -/
theorem IsYielded.headed {body : Edit Unit} {rest : Layout .row}
    (hrest : rest.IsYielded env writer) {head : Phrase} {group middle : Group} {last : Bool}
    {draft : Draft} {inner : List Fragment} {mentioned : List ClassType}
    (hbody : Records env (opened env head group draft) (body (opened env head group draft)) inner
      mentioned middle none) (hkept : (last && inner.isEmpty) = false) :
    ∃ clauses mentioned' high failure,
      rest.Yields env writer (some group) middle clauses mentioned' high failure ∧
        Records env draft ((do
            Edit.clause env head group last body
            rest.write env writer group) draft)
          (.tokens head.tokens :: bracketed .statements group inner clauses)
          (head.mentioned ++ mentioned ++ mentioned') high failure := by
  have hclause := hbody.clause hkept
  obtain ⟨clauses, mentioned', high, failure, hyields, hrecords⟩ :=
    hrest group (Edit.clause env head group last body draft).2
  rw [hclause.allocated] at hyields
  have hrow := hclause.then hrecords
  rw [List.cons_append, bracketed_append, List.nil_append] at hrow
  exact ⟨clauses, mentioned', high, failure, hyields, hrow⟩

theorem IsYielded.clause {body : Layout .own} {rest : Layout .row}
    (hbody : body.IsYielded env writer) (hrest : rest.IsYielded env writer) (head : ClauseHead) :
    (clause head body rest).IsYielded env writer := by
  intro group draft
  rw [write]
  obtain ⟨inner, mentioned, middle, _ | e, hyields, hrecords⟩ :=
    hbody group (opened env (head.phrase env) group draft)
  · by_cases hkept : (head.isRetractable && rest.isDone && inner.isEmpty) = false
    · obtain ⟨clauses, mentioned', high, failure, hyields', hrow⟩ := hrest.headed hrecords hkept
      exact ⟨_, _, _, _, .clause hyields hkept hyields', hrow⟩
    · simp only [Bool.not_eq_false, Bool.and_eq_true] at hkept
      obtain ⟨⟨hhead, hdone⟩, hinner⟩ := hkept
      obtain rfl := eq_done_of_isDone hdone
      obtain rfl := List.isEmpty_iff.1 hinner
      have hclause := hrecords.shrunkClause
      rw [hhead]
      simp only [write, isDone, Bool.and_self, bind_pure_unit]
      exact ⟨_, _, _, _, .emptyClause hhead hyields, hclause⟩
  · exact ⟨_, _, _, _, .failedClause hyields, hrecords.failedClause.stop⟩

theorem IsYielded.attempt {body : Statement} {rest : Layout .row}
    (hbody : body.layout.IsYielded env writer) (hrest : rest.IsYielded env writer)
    (resources : List Resource) : (attempt resources body rest).IsYielded env writer := by
  intro group draft
  cases resources with
  | nil => exact ⟨_, _, _, _, .noResources, rfl, (List.append_nil _).symm, rfl, rfl⟩
  | cons resource resources =>
      let number := draft.sequence.allocated
      let numbered : Draft := { draft with sequence := ⟨draft.fragments, number + 1⟩ }
      let head := resourcesHead env (resource :: resources)
      rw [write]
      · obtain ⟨inner, mentioned, middle, _ | e, hyields, hrecords⟩ :=
          hbody number (opened env head number numbered)
        · rw [← body.write_eq env writer number] at hrecords
          by_cases hkept : (rest.isDone && inner.isEmpty) = false
          · obtain ⟨clauses, mentioned', high, failure, hyields', hrow⟩ :=
              hrest.headed hrecords hkept
            exact ⟨_, _, _, _, .attempt hyields hkept hyields', hrow.fresh rfl⟩
          · simp only [Bool.not_eq_false, Bool.and_eq_true] at hkept
            obtain ⟨hdone, hinner⟩ := hkept
            obtain rfl := eq_done_of_isDone hdone
            obtain rfl := List.isEmpty_iff.1 hinner
            have hclause := hrecords.shrunkClause
            simp only [write, isDone, bind_pure_unit]
            exact ⟨_, _, _, _, .emptyAttempt hyields, hclause.fresh rfl⟩
        · rw [← body.write_eq env writer number] at hrecords
          exact ⟨_, _, _, _, .failedAttempt hyields, hrecords.failedClause.stop.fresh rfl⟩
      · simp

end Steps

variable {env : Environment} {writer : DeclarationWriter}

/-- A layout is yielded if the statements in it are, for themselves and as branches. -/
theorem isYielded_of_parts (hwriter : writer.Appends) {scope : Scope} (layout : Layout scope)
    (h : ∀ s ∈ layout.parts, s.layout.IsYielded env writer ∧ s.branchLayout.IsYielded env writer) :
    layout.IsYielded env writer := by
  induction layout with
  | nothing =>
      exact fun _ _ => ⟨_, _, _, _, .nothing, rfl, (List.append_nil _).symm, rfl, rfl⟩
  | said head => exact fun _ _ => ⟨_, _, _, _, .said head, rfl, rfl, rfl, rfl⟩
  | spacer kind => exact fun _ _ => ⟨_, _, _, _, .spacer kind, rfl, rfl, rfl, rfl⟩
  | reported event =>
      exact fun _ _ => ⟨_, _, _, _, .reported event, rfl, (List.append_nil _).symm, rfl, rfl⟩
  | done => exact fun _ _ => ⟨_, _, _, _, .done, rfl, (List.append_nil _).symm, rfl, rfl⟩
  | declared declaration =>
      intro group draft
      obtain ⟨run, hrun⟩ := hwriter declaration env draft.fragments
      refine ⟨_, _, _, _, .declared declaration hrun, rfl, ?_, rfl, rfl⟩
      rw [← List.append_assoc, ← hrun]
      rfl
  | part s =>
      intro group draft
      rw [write, s.write_eq env writer group]
      obtain ⟨_, _, _, _, hyields, hrecords⟩ := (h s (by simp)).1 group draft
      exact ⟨_, _, _, _, .part hyields, hrecords⟩
  | both first second ihFirst ihSecond =>
      rw [parts, List.forall_mem_append] at h
      exact (ihFirst h.1).both (ihSecond h.2)
  | loop head body ih => exact (ih h).loop head
  | block kind body rest ihBody ihRest =>
      rw [parts, List.forall_mem_append] at h
      exact (ihBody h.1).block (ihRest h.2) kind
  | attempt resources body rest ih =>
      rw [parts, List.forall_mem_cons] at h
      exact h.1.1.attempt (ih h.2) resources
  | clause head body rest ihBody ihRest =>
      rw [parts, List.forall_mem_append] at h
      exact (ihBody h.1).clause (ihRest h.2) head
  | branch s =>
      intro group draft
      rw [write, s.write_branch env writer group]
      obtain ⟨_, _, _, _, hyields, hrecords⟩ := (h s (by simp)).2 group draft
      exact ⟨_, _, _, _, .branch hyields, hrecords⟩

end Layout

namespace Statement

theorem isYielded (env : Environment) {writer : DeclarationWriter} (hwriter : writer.Appends)
    (s : Statement) :
    s.layout.IsYielded env writer ∧ s.branchLayout.IsYielded env writer := by
  induction s using induction_on_parts with
  | step s ih =>
  exact ⟨s.layout.isYielded_of_parts hwriter fun part hpart => ih part (s.parts_layout hpart),
    s.branchLayout.isYielded_of_parts hwriter fun part hpart =>
      ih part (s.parts_branchLayout hpart)⟩

end Statement

/-- What a session does with a statement is a yield of its layout. -/
theorem Session.fragment_yields (s : Session) (hwriter : s.writer.Appends) (t : Statement) :
    ∃ run mentioned,
      t.layout.Yields s.environment s.writer none s.sequence.allocated run mentioned
        (s.fragment t).1.sequence.allocated (s.fragment t).2 ∧
      (s.fragment t).1.fragments = s.fragments ++ run ∧
      (s.fragment t).1.imports = s.imports.insertAll mentioned s.environment := by
  obtain ⟨run, mentioned, high, failure, hyields, hrecords⟩ :=
    (t.isYielded s.environment hwriter).1 0 s.toDraft
  rw [← t.write_eq] at hrecords
  obtain ⟨rfl, hfragments, rfl, himports⟩ := hrecords
  exact ⟨run, mentioned, hyields, hfragments, himports⟩

end JavaFragments
