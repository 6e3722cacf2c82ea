import JavaFragments.Proofs.Dues
import JavaFragments.Proofs.GroupNumbers
import JavaFragments.Proofs.Independence

/-! # Group discipline

A statement takes its group numbers from where the session stands. Each of them names the blocks of
one group, but for the number of a `try` with resources that loses its only block. -/
set_option autoImplicit false

namespace JavaFragments

namespace Statement

/-- A `try` whose resources are its only clause and whose body prints nothing. -/
def losesGroup (env : Environment) (printer : DeclarationPrinter) : Statement → Bool
  | .tryCatch (some (_ :: _)) body [] none =>
      ((Session.start env printer).fragment body).1.fragments.isEmpty
  | _ => false

/-- How many statements of the tree lose their group. -/
def lostGroups (env : Environment) (printer : DeclarationPrinter) (s : Statement) : Nat :=
  (s.nodes.filter (losesGroup env printer)).length

end Statement

/-- A group that is lost has the price one. -/
def Tariff.groupsLost (env : Environment) (printer : DeclarationPrinter) : Tariff :=
  ⟨fun _ => 0, 0, 0, fun body =>
    ((Session.start env printer).fragment body).1.fragments.isEmpty.toNat⟩

section Losses
variable (env : Environment) (printer : DeclarationPrinter)

theorem Statement.due_groupsLost (s : Statement) :
    s.due (.groupsLost env printer) = (s.losesGroup env printer).toNat := by
  unfold due
  split <;> simp [Tariff.groupsLost, losesGroup]

theorem Statement.lostGroups_eq_dues (s : Statement) :
    s.lostGroups env printer = s.dues (.groupsLost env printer) := by
  rw [lostGroups, dues, funext (due_groupsLost env printer), Tariff.sum_toNat,
    List.countP_eq_length_filter]

end Losses

/-! ## Clauses stand only behind blocks that may have some -/

theorem ClauseHead.word_mem (head : ClauseHead) : head.word ∈ clauseWords := by
  cases head <;> simp [word, clauseWords]

def BlockKind.mayHaveClauses : BlockKind → Bool
  | .tryBody | .statements => true
  | .singleStatement | .doWhile => false

namespace Layout

/-- Clauses stand only behind blocks that may have some. -/
@[simp] def isJoined : {scope : Scope} → Layout scope → Bool
  | _, .nothing | _, .said _ | _, .spacer _ | _, .reported _ | _, .declared _ | _, .part _ => true
  | _, .both first second => first.isJoined && second.isJoined
  | _, .loop _ body => body.isJoined
  | _, .block kind body rest =>
      (rest.isDone || kind.mayHaveClauses) && body.isJoined && rest.isJoined
  | _, .attempt _ _ rest => rest.isJoined
  | _, .done => true
  | _, .clause _ body rest => body.isJoined && rest.isJoined
  | _, .branch _ => true

theorem isJoined_spaced (kind : Spacer) (layouts : List (Layout .own))
    (h : ∀ layout ∈ layouts, layout.isJoined = true) : (spaced kind layouts).isJoined = true := by
  induction layouts with
  | nil => rfl
  | cons first rest ih =>
      rw [List.forall_mem_cons] at h
      cases rest with
      | nil => exact h.1
      | cons second rest =>
          rw [spaced_cons, isJoined, isJoined, h.1, ih h.2]
          rfl

theorem isJoined_body (b : Option Statement) : (body b).isJoined = true := by
  cases b <;> rfl

theorem isJoined_clauses (catchClauses : List CatchClause) (finallyBody : Option Statement) :
    (clauses finallyBody catchClauses).isJoined = true := by
  induction catchClauses with
  | nil => cases finallyBody <;> rfl
  | cons c rest ih => exact ih

end Layout

theorem SwitchBlock.isJoined_layout (b : SwitchBlock) : b.layout.isJoined = true := by
  cases b with
  | label label body => rfl
  | multiLabels labels body =>
      have hlabels := Layout.isJoined_spaced .betweenSwitchLabels
        (labels.map fun label => .said (.switchLabel label)) (by simp)
      rw [layout, Layout.labelled, Layout.isJoined, hlabels]
      rfl

namespace Statement

theorem isJoined_layout (s : Statement) : s.layout.isJoined = true := by
  cases s with
  | forLoop | forEach | whileLoop => exact Layout.isJoined_body _
  | doWhile condition body => cases body <;> rfl
  | ifThen condition body =>
      cases body with
      | none => rfl
      | some b =>
          rw [layout, Layout.isJoined, Layout.guarded]
          split <;> rfl
  | labelled label statement => cases statement <;> rfl
  | sequence statements => exact Layout.isJoined_spaced _ _ (by simp)
  | switch condition blocks =>
      have hblocks := Layout.isJoined_spaced .betweenSwitchLabelBlocks
        (blocks.map SwitchBlock.layout) (by simp [SwitchBlock.isJoined_layout])
      simp [layout, Layout.isDone, hblocks]
  | synchronized monitor body => cases body <;> rfl
  | tryCatch resources body catchClauses finallyBody =>
      have hclauses := Layout.isJoined_clauses catchClauses finallyBody
      cases resources <;> simp [layout, BlockKind.mayHaveClauses, hclauses]
  | _ => rfl

theorem isJoined_branchLayout (s : Statement) : s.branchLayout.isJoined = true := by
  cases s using branchLayout_cases with
  | ifThen condition body => cases body <;> rfl
  | ifElse => rfl
  | chained first _ hlayout =>
      rw [hlayout]
      rfl
  | placed s _ hlayout =>
      rw [hlayout, Layout.isJoined, s.isJoined_layout]
      rfl

end Statement

/-! ## Numbers of yields -/

section Spans
variable {env : Environment} {printer : DeclarationPrinter}

/-- Whether a body prints anything does not depend on where it stands. -/
theorem Layout.Yields.lone_eq (hprinter : printer.PrintsTokens) {body : Statement}
    {low high : Group} {run : List Fragment} {mentioned : List ClassType}
    {failure : Option FragmentationError}
    (h : body.layout.Yields env printer.writer none low run mentioned high failure) :
    (Tariff.groupsLost env printer).lone body = run.isEmpty.toNat := by
  obtain ⟨first, mentioned', hyields, hfragments, -⟩ :=
    (Session.start env printer).fragment_yields printer.writer_appends body
  obtain ⟨rfl, -⟩ := hyields.moved hprinter h rfl (Nat.zero_add _).symm
  rw [isEmpty_renumbered]
  exact congrArg (·.isEmpty.toNat) hfragments

/-- What a layout yields takes the numbers of its groups and those of the groups it loses. -/
theorem Layout.Yields.spans (hprinter : printer.PrintsTokens) {scope : Scope}
    {layout : Layout scope} {outer : Option Group} {low high : Nat} {run : List Fragment}
    {mentioned : List ClassType} {failure : Option FragmentationError}
    (h : layout.Yields env printer.writer outer low run mentioned high failure)
    (hok : failure = none) (hjoined : layout.isJoined = true)
    (houter : ∀ group, outer = some group → group < low) :
    Spans outer low high (layout.dues (.groupsLost env printer)) run := by
  induction h with
  | nothing | reported | done => exact .nil _ _
  | said => exact .tokens none _ _
  | spacer kind => exact .spacer _ kind
  | @declared declaration _ _ _ hrun =>
      obtain ⟨tokens, htokens⟩ := hprinter declaration env
      rw [printer.run_eq hrun, htokens]
      exact (Spans.ofTokens _ tokens).append (.tokens none _ _)
  | @part s _ _ _ _ _ _ ih =>
      rw [dues, ← s.dues_layout]
      exact ih hok s.isJoined_layout houter
  | both _ _ ihFirst ihSecond =>
      rw [isJoined, Bool.and_eq_true] at hjoined
      exact (ihFirst rfl hjoined.1 houter).append (ihSecond hok hjoined.2 (by simp))
  | emptyLoop _ ih => exact (ih rfl hjoined houter).say_for_nothing none _
  | @loop head _ low high inner _ _ _ ih =>
      have hblock := (Spans.tokens none low (head.phrase env).tokens).append
        ((ih rfl hjoined houter).late (loopKind inner))
      rw [Nat.zero_add] at hblock
      exact hblock
  | @block kind _ rest low _ _ _ _ _ _ _ _ hrest ihBody ihRest =>
      simp only [isJoined, Bool.and_eq_true, Bool.or_eq_true] at hjoined
      obtain ⟨⟨hkind, hbody⟩, hclauses⟩ := hjoined
      have hinner := ihBody rfl hbody (by simp)
      have hbehind := ihRest hok hclauses (by rintro group ⟨⟩; exact hinner.le)
      have hfree : (Tariff.groupsLost env printer).start kind = 0 := by cases kind <;> rfl
      rw [dues, hfree, Nat.zero_add]
      refine hinner.row kind hbehind ?_
      rcases hkind with hdone | hkind
      · obtain rfl := eq_done_of_isDone hdone
        cases hrest
        exact .inl rfl
      · cases kind with
        | tryBody | statements => simp
        | singleStatement | doWhile => cases hkind
  | @attempt resource resources body rest low _ _ inner _ _ _ _ hbody hkept _ ihBody ihRest =>
      have hinner := ihBody rfl body.isJoined_layout (by simp)
      have hbehind := ihRest hok hjoined (by rintro group ⟨⟩; exact hinner.le)
      have hloss : (if rest.isDone then (Tariff.groupsLost env printer).lone body else 0) = 0 := by
        rw [hbody.lone_eq hprinter]
        cases hdone : rest.isDone
        · rfl
        · rw [hdone, Bool.true_and] at hkept
          rw [hkept]
          rfl
      have hrow := (Spans.tokens none low (resourcesHead env (resource :: resources)).tokens).append
        (hinner.row .statements hbehind (.inr (.inr rfl)))
      rw [dues, hloss, ← body.dues_layout, Nat.add_assoc]
      exact hrow
  | @emptyAttempt _ _ body low _ _ hbody ih =>
      have hloss : (Tariff.groupsLost env printer).lone body = 1 := hbody.lone_eq hprinter
      have hinner := ih rfl body.isJoined_layout (by simp)
      rw [dues, isDone, if_pos rfl, hloss, ← body.dues_layout, dues, Nat.add_comm 1]
      exact (hinner.say_for_nothing none _).lose
  | @clause head _ _ group low middle _ inner clauses _ _ _ _ _ _ ihBody ihRest =>
      rw [isJoined, Bool.and_eq_true] at hjoined
      have hlow := houter group rfl
      have hinner := ihBody rfl hjoined.1 (by simp)
      have hbehind := ihRest hok hjoined.2
        (by rintro g ⟨⟩; exact Nat.lt_of_lt_of_le hlow hinner.le)
      obtain ⟨ts, hhead⟩ := head.tokens_phrase env
      rw [hhead]
      exact hinner.clause head.word_mem ts hlow hbehind
  | @emptyClause head _ group _ _ _ _ _ ih =>
      rw [isJoined, Bool.and_eq_true] at hjoined
      exact (ih rfl hjoined.1 (by simp)).say_for_nothing (some group) _
  | @branch s _ _ _ _ _ _ _ ih =>
      rw [dues, ← s.dues_branchLayout]
      exact ih hok s.isJoined_branchLayout houter
  | stopped | failedLoop | failedBlock | failedAttempt | noResources | failedClause => cases hok

end Spans

/-- A session spends its numbers on the groups of what a statement adds. -/
theorem fragment_spans {printer : DeclarationPrinter} (hprinter : printer.PrintsTokens)
    {s : Session} (hwriter : s.writer = printer.writer) {t : Statement}
    (hok : (s.fragment t).2 = none) :
    ∃ run, (s.fragment t).1.fragments = s.fragments ++ run ∧
      Spans none s.sequence.allocated (s.fragment t).1.sequence.allocated
        (t.lostGroups s.environment printer) run := by
  obtain ⟨run, mentioned, hyields, hrun, -⟩ :=
    s.fragment_yields (by rw [hwriter]; exact printer.writer_appends) t
  rw [hwriter] at hyields
  have hspans := hyields.spans hprinter hok t.isJoined_layout (by simp)
  rw [t.lostGroups_eq_dues, ← t.dues_layout]
  exact ⟨run, hrun, hspans⟩

/-- In the fragments of a method body, no block stands inside another one of its group, the blocks
of each group stand in a row of the right kinds with the words of a clause between each two, and
every number that was given out names a group but for those of the groups that were lost. -/
theorem group_discipline {body : Statement} {env : Environment} {result : FragmentedBody}
    (h : fragmentBody body env = .ok result) :
    (∀ kind group front inside back,
        result.fragments = front ++ bracketed kind group inside back → Balanced inside →
        group ∉ groupsIn inside) ∧
      (∀ group, ∃ kinds, edgesOf group result.fragments = blocksInRow group kinds ∧
        GroupKinds kinds) ∧
      (∀ front kind group back, result.fragments = front ++ .startBlock kind group :: back →
        group ∈ groupsIn front →
        ∃ before kind' word ts, word ∈ ["else", "catch", "finally"] ∧
          front = before ++ [.endBlock kind' group, .tokens (.keyword word :: ts)]) ∧
      (∀ group ∈ groupsIn result.fragments,
        group < ((Session.start env declarationHead).fragment body).1.sequence.allocated) ∧
      (groupsIn result.fragments).toFinset.card +
          (body.nodes.filter (Statement.losesGroup env declarationHead)).length =
        ((Session.start env declarationHead).fragment body).1.sequence.allocated := by
  obtain ⟨hok, hfragments⟩ := fragmentBody_ok h
  obtain ⟨run, hrun, fresh, hgrouped, hrange, hcount⟩ :=
    fragment_spans declarationHead_printsTokens rfl hok
  have hresult : result.fragments = run := hfragments.trans hrun
  rw [hresult]
  refine ⟨?_, hgrouped.inRow, hgrouped.linked, ?_, ?_⟩
  · exact fun kind group front inside back hsplit hinside =>
      (hgrouped.inRow group).not_inside hsplit hinside
  · intro group hmem
    rw [hgrouped.mem_groupsIn_iff] at hmem
    exact (hrange group hmem).2
  · rw [hgrouped.card_groupsIn, hcount]
    have hzero : (Session.start env declarationHead).sequence.allocated = 0 := rfl
    rw [hzero, Nat.zero_add]
    rfl

/-- Behind an `if` with an `else`, a `try` that loses its only block and with it a number. -/
theorem group_discipline_behind_lost_group :
    let body := Statement.sequence [.ifElse .thisReference .returnVoid .returnVoid,
      .tryCatch (some [⟨.ofInternalName "Lock", "l", .thisReference, none⟩]) (.sequence []) [] none]
    ∃ result, fragmentBody body ⟨"Main"⟩ = .ok result ∧
      (groupsIn result.fragments).toFinset.card +
        (body.nodes.filter (Statement.losesGroup ⟨"Main"⟩ declarationHead)).length = 2 := by
  intro body
  have h : fragmentBody body ⟨"Main"⟩ = .ok _ := rfl
  exact ⟨_, h, (group_discipline h).2.2.2.2⟩

end JavaFragments
