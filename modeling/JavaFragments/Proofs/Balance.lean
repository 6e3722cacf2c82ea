import JavaFragments.Proofs.Faults

/-! # Balance of what a statement adds

`addedBy` is the run that a statement adds to a session. It is balanced where the statement
succeeds, in whatever state the session is, and a statement succeeds just if no `try` in it lacks
its resources. So the check at the end of a method body never finds anything. -/
set_option autoImplicit false

namespace JavaFragments

namespace Session

/-- The fragments of a session behind those that it had before the statement. -/
def addedBy (s : Session) (t : Statement) : List Fragment :=
  (s.fragment t).1.fragments.drop s.fragments.length

theorem addedBy_eq {s : Session} {t : Statement} {run : List Fragment}
    (h : (s.fragment t).1.fragments = s.fragments ++ run) : s.addedBy t = run := by
  rw [addedBy, h, List.drop_left]

/-- A statement fails where it has a fault, and adds a run that is balanced unless the fault lies
in a block outside every loop. -/
theorem fragment_run (s : Session) (hwriter : s.writer.AddsBalanced) (t : Statement) :
    (s.fragment t).1.fragments = s.fragments ++ s.addedBy t ∧
      (s.fragment t).2 = t.faultPath?.map (fun _ => .emptyResourceList) ∧
      ∃ blocks, Unclosed blocks (s.addedBy t) ∧ (t.FaultLeavesBlock ↔ blocks ≠ []) := by
  obtain ⟨run, mentioned, hyields, hadded, -⟩ := s.fragment_yields hwriter.appends t
  have hmeets := hyields.meets hwriter
  rw [addedBy_eq hadded, hadded]
  rw [t.fate_layout, Statement.fate] at hmeets
  generalize (s.fragment t).2 = failure at hmeets
  cases hpath : t.faultPath? with
  | none =>
      rw [hpath] at hmeets
      cases hmeets with
      | ok hbalanced =>
          refine ⟨rfl, rfl, [], .balanced hbalanced, ?_⟩
          simp [Statement.FaultLeavesBlock, hpath]
  | some path =>
      rw [hpath] at hmeets
      cases hmeets with
      | error blocks hblocks hopen =>
          refine ⟨rfl, rfl, blocks, hblocks, ?_⟩
          rw [← hopen, Statement.leavesBlock_iff]
          simp [Statement.FaultLeavesBlock, hpath]

theorem addedBy_balanced_iff (s : Session) (hwriter : s.writer.AddsBalanced) (t : Statement) :
    Balanced (s.addedBy t) ↔ ¬ t.FaultLeavesBlock := by
  obtain ⟨-, -, blocks, hblocks, hleaves⟩ := s.fragment_run hwriter t
  rw [hleaves, not_not]
  constructor
  · intro hbalanced
    have hfault := balanceFault?_unclosed hblocks
    rw [balanceFault?_eq_none hbalanced] at hfault
    cases blocks with
    | nil => rfl
    | cons block rest => cases hfault
  · rintro rfl
    cases hblocks with
    | balanced h => exact h

theorem finish_of_none {s : Session} (h : balanceFault? s.fragments = none) :
    s.finish = .ok ⟨s.fragments, s.imports⟩ := by
  simp only [Draft.fragments] at h ⊢
  rw [finish, h]

theorem finish_of_some {s : Session} {fault : BalanceFault}
    (h : balanceFault? s.fragments = some fault) : s.finish = .error (.unbalanced fault) := by
  simp only [Draft.fragments] at h
  rw [finish, h]

end Session

theorem declarationHead_addsBalanced : declarationHead.writer.AddsBalanced :=
  fun _ _ _ => ⟨_, rfl, .tokens _ .nil⟩

theorem Statement.lacksResources_iff (s : Statement) :
    s.lacksResources = true ↔
      ∃ body catchClauses finallyBody, s = .tryCatch (some []) body catchClauses finallyBody := by
  constructor
  · intro h
    unfold lacksResources at h
    split at h
    · exact ⟨_, _, _, rfl⟩
    · cases h
  · rintro ⟨body, catchClauses, finallyBody, rfl⟩
    rfl

/-- Some `try` in the statement has an empty list of resources. -/
def Statement.HasFault (s : Statement) : Prop :=
  ∃ body catchClauses finallyBody,
    (Statement.tryCatch (some []) body catchClauses finallyBody).Within s

theorem Statement.hasFault_iff (s : Statement) : s.HasFault ↔ s.faultPath?.isSome = true := by
  rw [← not_iff_not, Bool.not_eq_true, Option.isSome_eq_false_iff, Option.isNone_iff_eq_none,
    faultPath?_eq_none_iff]
  constructor
  · intro h t ht
    by_contra hlacks
    rw [Bool.not_eq_false, lacksResources_iff] at hlacks
    obtain ⟨body, catchClauses, finallyBody, rfl⟩ := hlacks
    exact h ⟨body, catchClauses, finallyBody, ht⟩
  · rintro h ⟨body, catchClauses, finallyBody, ht⟩
    exact Bool.noConfusion (h _ ht)

theorem fragmentBody_of_failed {body : Statement} {env : Environment} {e : FragmentationError}
    (h : ((Session.start env declarationHead).fragment body).2 = some e) :
    fragmentBody body env = .error e := by
  unfold fragmentBody
  rcases hrun : (Session.start env declarationHead).fragment body with ⟨session, failure⟩
  rw [hrun] at h
  obtain rfl : failure = some e := h
  rfl

theorem fragmentBody_of_accepted {body : Statement} {env : Environment}
    (h : ((Session.start env declarationHead).fragment body).2 = none) :
    fragmentBody body env = ((Session.start env declarationHead).fragment body).1.finish := by
  unfold fragmentBody
  rcases hrun : (Session.start env declarationHead).fragment body with ⟨session, failure⟩
  rw [hrun] at h
  obtain rfl : failure = none := h
  rfl

/-- A method body is refused at a `try` that lacks its resources, and accepted without one. -/
theorem fragmentBody_cases (body : Statement) (env : Environment) :
    if body.faultPath?.isSome then fragmentBody body env = .error .emptyResourceList
    else ∃ result, fragmentBody body env = .ok result := by
  obtain ⟨hadded, hfailure, blocks, hblocks, hleaves⟩ :=
    (Session.start env declarationHead).fragment_run declarationHead_addsBalanced body
  cases hpath : body.faultPath? with
  | some path =>
      rw [hpath] at hfailure
      exact fragmentBody_of_failed hfailure
  | none =>
      rw [hpath] at hfailure
      have hnil : blocks = [] := by
        by_contra hne
        obtain ⟨path, hsome, -⟩ := hleaves.2 hne
        rw [hpath] at hsome
        cases hsome
      have hfault : balanceFault? ((Session.start env declarationHead).fragment body).1.fragments =
          none := by
        rw [hadded]
        exact (balanceFault?_unclosed hblocks).trans (by rw [hnil]; rfl)
      exact ⟨_, (fragmentBody_of_accepted hfailure).trans (Session.finish_of_none hfault)⟩

theorem fragmentBody_ok {body : Statement} {env : Environment} {result : FragmentedBody}
    (h : fragmentBody body env = .ok result) :
    ((Session.start env declarationHead).fragment body).2 = none ∧
      result.fragments = ((Session.start env declarationHead).fragment body).1.fragments := by
  cases hfailure : ((Session.start env declarationHead).fragment body).2 with
  | some e =>
      rw [fragmentBody_of_failed hfailure] at h
      cases h
  | none =>
      rw [fragmentBody_of_accepted hfailure] at h
      refine ⟨rfl, ?_⟩
      cases hfault :
          balanceFault? ((Session.start env declarationHead).fragment body).1.fragments with
      | none =>
          rw [← Except.ok.inj ((Session.finish_of_none hfault).symm.trans h)]
      | some fault => cases (Session.finish_of_some hfault).symm.trans h

/-- A statement that succeeds adds a balanced run to every session, and so a method body is refused
just where a `try` in it lacks its resources. -/
theorem fragment_adds_balanced_run :
    (∀ (s : Session) (t : Statement), s.writer.AddsBalanced → (s.fragment t).2 = none →
      ∃ run, (s.fragment t).1.fragments = s.fragments ++ run ∧ Balanced run) ∧
    ∀ (body : Statement) (env : Environment),
      (∀ fault, fragmentBody body env ≠ .error (.unbalanced fault)) ∧
      (fragmentBody body env = .error .emptyResourceList ↔ body.HasFault) ∧
      ((∃ result, fragmentBody body env = .ok result) ↔ ¬ body.HasFault) := by
  constructor
  · intro s t hwriter hsuccess
    obtain ⟨hadded, hfailure, -⟩ := s.fragment_run hwriter t
    refine ⟨s.addedBy t, hadded, (s.addedBy_balanced_iff hwriter t).2 ?_⟩
    rintro ⟨path, hpath, -⟩
    rw [hfailure, hpath] at hsuccess
    cases hsuccess
  · intro body env
    have hcases := fragmentBody_cases body env
    rw [Statement.hasFault_iff]
    split at hcases
    · rename_i hfault
      simp [hcases, hfault]
    · rename_i hfault
      obtain ⟨result, hresult⟩ := hcases
      simp [hresult, hfault]

/-- Inside a block that is still open, a loop whose body is a `try` with an empty clause. The run
closes its own blocks and leaves the open one alone. -/
theorem fragment_adds_balanced_run_in_open_block :
    let s : Session :=
      ⟨⟨⟨[.startBlock .doWhile 4], 2⟩, .empty, []⟩, ⟨"Main"⟩, declarationHead.writer⟩
    let loop := Statement.whileLoop .thisReference (some (.tryCatch none (.sequence [])
      [⟨.ofInternalName "Error", [], "e", none, .sequence []⟩] none))
    let run : List Fragment :=
      [.tokens [.keyword "while", .space, .startBlock .parameters, .keyword "this",
          .endBlock .parameters],
        .startBlock .statements 3, .startBlock .tryBody 2, .endBlock .tryBody 2,
        .tokens [.keyword "catch", .spaceOpenBracket, .reference "Error" "Error" (some "Main"),
          .space, .text "e", .closeBracket, .space, .emptyBraces],
        .endBlock .statements 3]
    s.writer.AddsBalanced ∧ (s.fragment loop).2 = none ∧
      (s.fragment loop).1.fragments = [.startBlock .doWhile 4] ++ run ∧ Balanced run := by
  intro s loop run
  have hwriter : s.writer.AddsBalanced := declarationHead_addsBalanced
  have hok : (s.fragment loop).2 = none := rfl
  obtain ⟨added, hadded, hbalanced⟩ := fragment_adds_balanced_run.1 s loop hwriter hok
  have hrun : added = run := List.append_cancel_left (hadded.symm.trans rfl)
  rw [hrun] at hadded hbalanced
  exact ⟨hwriter, hok, hadded, hbalanced⟩

end JavaFragments
