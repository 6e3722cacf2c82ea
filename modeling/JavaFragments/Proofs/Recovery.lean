import JavaFragments.Proofs.Balance
import Mathlib.Data.List.Induction

/-! # Sessions that go on behind failures

A session goes on behind a statement that fails. Its fragments only ever grow at the end, a loop
that fails adds nothing, and the session ends well unless some fault lies in a block outside every
loop. The blocks left open then lie inside each other, so the check at the end names the innermost
of the last statement that left one open. -/
set_option autoImplicit false

namespace JavaFragments

/-- Adds fragments of tokens behind those that are there, whichever these are. -/
def DeclarationWriter.AddsTokens (writer : DeclarationWriter) : Prop :=
  ∀ declaration env fragments, ∃ run : List (List Token),
    writer declaration env fragments = fragments ++ run.map Fragment.tokens

theorem balanced_of_tokens (run : List (List Token)) : Balanced (run.map Fragment.tokens) := by
  induction run with
  | nil => exact .nil
  | cons tokens rest ih => exact .tokens tokens ih

theorem DeclarationWriter.AddsTokens.addsBalanced {writer : DeclarationWriter}
    (h : writer.AddsTokens) : writer.AddsBalanced := by
  intro declaration env fragments
  obtain ⟨run, hrun⟩ := h declaration env fragments
  exact ⟨run.map Fragment.tokens, hrun, balanced_of_tokens run⟩

theorem Statement.layout_of_isLoop {s : Statement} (h : s.isLoop = true) :
    ∃ head body, s.layout = .loop head body := by
  cases s with
  | forLoop | forEach | whileLoop => exact ⟨_, _, rfl⟩
  | _ => cases h

namespace Session

theorem writer_fragmentAll (s : Session) (statements : List Statement) :
    (s.fragmentAll statements).writer = s.writer := by
  induction statements generalizing s with
  | nil => rfl
  | cons t rest ih => exact ih (s.fragment t).1

theorem fragmentAll_append_singleton (s : Session) (front : List Statement) (t : Statement) :
    s.fragmentAll (front ++ [t]) = ((s.fragmentAll front).fragment t).1 := by
  simp [fragmentAll]

/-- A loop that fails adds nothing. -/
theorem addedBy_of_failed_loop {s : Session} {t : Statement} (hwriter : s.writer.Appends)
    (hloop : t.isLoop = true) (hfailed : (s.fragment t).2 ≠ none) : s.addedBy t = [] := by
  obtain ⟨run, mentioned, hyields, hadded, -⟩ := s.fragment_yields hwriter t
  obtain ⟨head, body, hlayout⟩ := Statement.layout_of_isLoop hloop
  rw [hlayout] at hyields
  rw [addedBy_eq hadded]
  generalize (s.fragment t).1.sequence.allocated = high at hyields
  generalize (s.fragment t).2 = failure at hyields hfailed
  cases hyields with
  | emptyLoop | loop => exact absurd rfl hfailed
  | failedLoop => rfl

/-- The statement behind `front` leaves a block open, `block` is the innermost one, and no
statement of `back` leaves one open. -/
structure LastOpen (s : Session) (front : List Statement) (t : Statement) (back : List Statement)
    (block : OpenBlock) : Prop where
  leaves : t.FaultLeavesBlock
  innermost : ∃ outer inner,
    (s.fragmentAll front).addedBy t = outer ++ .startBlock block.kind block.group :: inner ∧
      Balanced inner
  last : ∀ u ∈ back, ¬ u.FaultLeavesBlock

/-- The blocks that stand open behind a run of statements. -/
theorem fragmentAll_unclosed (s : Session) (hwriter : s.writer.AddsBalanced)
    (hstart : Balanced s.fragments) (statements : List Statement) :
    ∃ blocks, Unclosed blocks (s.fragmentAll statements).fragments ∧
      match blocks with
      | [] => ∀ t ∈ statements, ¬ t.FaultLeavesBlock
      | block :: _ => ∃ front t back,
          statements = front ++ t :: back ∧ s.LastOpen front t back block := by
  induction statements using List.reverseRecOn with
  | nil => exact ⟨[], .balanced hstart, by simp⟩
  | append_singleton front t ih =>
      obtain ⟨outer, houter, hlast⟩ := ih
      have hwriter' : (s.fragmentAll front).writer.AddsBalanced := by
        rwa [writer_fragmentAll]
      obtain ⟨hadded, -, blocks, hblocks, hleaves⟩ :=
        (s.fragmentAll front).fragment_run hwriter' t
      rw [fragmentAll_append_singleton, hadded]
      refine ⟨blocks ++ outer, houter.append hblocks, ?_⟩
      generalize hrun : (s.fragmentAll front).addedBy t = run at hblocks
      cases hblocks with
      | opened block _ hinner =>
          exact ⟨front, t, [], rfl, hleaves.2 (by simp), ⟨_, _, hrun, hinner⟩, by simp⟩
      | balanced hbalanced =>
          have hquiet : ¬ t.FaultLeavesBlock := by simp [hleaves]
          rw [List.nil_append]
          cases outer with
          | nil =>
              intro u hu
              rcases List.mem_append.1 hu with hu | hu
              · exact hlast u hu
              · rw [List.mem_singleton.1 hu]
                exact hquiet
          | cons block outer =>
              obtain ⟨front', t', back, rfl, hopen⟩ := hlast
              refine ⟨front', t', back ++ [t], by simp, hopen.leaves, hopen.innermost, ?_⟩
              intro u hu
              rcases List.mem_append.1 hu with hu | hu
              · exact hopen.last u hu
              · rw [List.mem_singleton.1 hu]
                exact hquiet

theorem failed_iff (s : Session) (hwriter : s.writer.AddsBalanced) (t : Statement) :
    (s.fragment t).2 ≠ none ↔ ∃ path, t.faultPath? = some path := by
  rw [(s.fragment_run hwriter t).2.1, ne_eq, Option.map_eq_none_iff, ← ne_eq,
    Option.ne_none_iff_exists']

/-- The session ends well, or with the innermost block of the last statement that left one open. -/
theorem finish_cases (s : Session) (hwriter : s.writer.AddsBalanced)
    (hstart : Balanced s.fragments) (statements : List Statement) :
    ((∃ result, (s.fragmentAll statements).finish = .ok result) ∧
      ∀ t ∈ statements, ¬ t.FaultLeavesBlock) ∨
    ∃ front t back block, statements = front ++ t :: back ∧ s.LastOpen front t back block ∧
      (s.fragmentAll statements).finish = .error (.unbalanced (.unclosed block.group)) := by
  obtain ⟨blocks, hblocks, hlast⟩ := s.fragmentAll_unclosed hwriter hstart statements
  have hfault := balanceFault?_unclosed hblocks
  cases blocks with
  | nil => exact Or.inl ⟨⟨_, finish_of_none hfault⟩, hlast⟩
  | cons block rest =>
      obtain ⟨front, t, back, hsplit, hopen⟩ := hlast
      exact Or.inr ⟨front, t, back, block, hsplit, hopen, finish_of_some hfault⟩

end Session

/-- A session keeps what it has, drops what a failed loop wrote, and ends well just if no failed
statement has its fault in a block outside every loop. Else it names the innermost block of the
last statement that left one open. -/
theorem session_behind_failures (env : Environment) (writer : DeclarationWriter)
    (hwriter : writer.AddsTokens) (statements : List Statement) :
    let s := Session.startWith env writer
    (∀ front t back, statements = front ++ t :: back →
      let before := s.fragmentAll front
      (before.fragment t).1.fragments = before.fragments ++ before.addedBy t ∧
        ((before.fragment t).2 ≠ none → t.isLoop = true →
          (before.fragment t).1.fragments = before.fragments)) ∧
    ((∃ result, (s.fragmentAll statements).finish = .ok result) ↔
      ∀ front t back, statements = front ++ t :: back →
        ((s.fragmentAll front).fragment t).2 ≠ none →
          ∃ path, t.faultPath? = some path ∧ ¬ Statement.BlockOutsideLoops path) ∧
    ((¬ ∃ result, (s.fragmentAll statements).finish = .ok result) →
      ∃ (front : List Statement) (t : Statement) (back : List Statement) (block : OpenBlock),
        statements = front ++ t :: back ∧
        ((s.fragmentAll front).fragment t).2 ≠ none ∧
        (∃ outer inner, (s.fragmentAll front).addedBy t =
          outer ++ .startBlock block.kind block.group :: inner ∧ Balanced inner) ∧
        (∀ middle u rest, back = middle ++ u :: rest →
          Balanced ((s.fragmentAll (front ++ t :: middle)).addedBy u)) ∧
        (s.fragmentAll statements).finish = .error (.unbalanced (.unclosed block.group))) := by
  intro s
  have hbalanced : ∀ front, (s.fragmentAll front).writer.AddsBalanced := by
    intro front
    rw [Session.writer_fragmentAll]
    exact hwriter.addsBalanced
  have hcases := s.finish_cases (hbalanced []) .nil statements
  refine ⟨?_, ?_, ?_⟩
  · intro front t back _ before
    have hadded := (before.fragment_run (hbalanced front) t).1
    refine ⟨hadded, fun hfailed hloop => ?_⟩
    have hwriter' := (hbalanced front).appends
    rw [hadded, Session.addedBy_of_failed_loop hwriter' hloop hfailed, List.append_nil]
  · constructor
    · intro hok front t back hsplit hfailed
      obtain ⟨path, hpath⟩ := (Session.failed_iff _ (hbalanced front) t).1 hfailed
      refine ⟨path, hpath, fun hblock => ?_⟩
      rcases hcases with ⟨-, hquiet⟩ | ⟨_, _, _, _, -, -, herror⟩
      · exact hquiet t (by simp [hsplit]) ⟨path, hpath, hblock⟩
      · obtain ⟨result, hresult⟩ := hok
        rw [hresult] at herror
        cases herror
    · intro hquiet
      rcases hcases with ⟨hok, -⟩ | ⟨front, t, back, block, hsplit, hopen, -⟩
      · exact hok
      · obtain ⟨path, hpath, hblock⟩ := hopen.leaves
        obtain ⟨path', hpath', hnot⟩ := hquiet front t back hsplit
          ((Session.failed_iff _ (hbalanced front) t).2 ⟨path, hpath⟩)
        rw [hpath] at hpath'
        cases hpath'
        exact absurd hblock hnot
  · intro hbad
    rcases hcases with ⟨hok, -⟩ | ⟨front, t, back, block, hsplit, hopen, herror⟩
    · exact absurd hok hbad
    · obtain ⟨path, hpath, -⟩ := hopen.leaves
      refine ⟨front, t, back, block, hsplit,
        (Session.failed_iff _ (hbalanced front) t).2 ⟨path, hpath⟩, hopen.innermost, ?_, herror⟩
      intro middle u rest hback
      refine (Session.addedBy_balanced_iff _ (hbalanced _) u).2 (hopen.last u ?_)
      rw [hback]
      simp

theorem declarationHead_addsTokens : declarationHead.writer.AddsTokens :=
  fun _ _ _ => ⟨[_], rfl⟩

/-- A fault in an `if`, the same in a loop, which throws the `if` away, again in a `do`, and a
statement that succeeds. The check at the end names the group of the `if` in the `do`. -/
theorem session_behind_failures_in_loop :
    let lost := Statement.ifThen .thisReference (some (.tryCatch (some []) (.sequence []) [] none))
    let loop := Statement.whileLoop .thisReference (some lost)
    let nested := Statement.doWhile .thisReference (some lost)
    let statements := [lost, loop, nested, .returnVoid]
    let s := Session.startWith ⟨"Main"⟩ declarationHead.writer
    let before := s.fragmentAll [lost]
    declarationHead.writer.AddsTokens ∧
      (before.fragment loop).2 ≠ none ∧ (before.fragment loop).1.fragments = before.fragments ∧
      ¬ (∃ result, (s.fragmentAll statements).finish = .ok result) ∧
      ∃ (front : List Statement) (t : Statement) (back : List Statement) (block : OpenBlock),
        statements = front ++ t :: back ∧
        (∃ outer inner, (s.fragmentAll front).addedBy t =
          outer ++ .startBlock block.kind block.group :: inner ∧ Balanced inner) ∧
        (∀ middle u rest, back = middle ++ u :: rest →
          Balanced ((s.fragmentAll (front ++ t :: middle)).addedBy u)) ∧
        (s.fragmentAll statements).finish = .error (.unbalanced (.unclosed block.group)) ∧
        block.group = 3 := by
  intro lost loop nested statements s before
  obtain ⟨hkept, -, hopen⟩ :=
    session_behind_failures ⟨"Main"⟩ declarationHead.writer declarationHead_addsTokens statements
  have hfailed : (before.fragment loop).2 ≠ none := by
    rintro ⟨⟩
  have hfinish : (s.fragmentAll statements).finish = .error (.unbalanced (.unclosed 3)) := rfl
  have hbad : ¬ ∃ result, (s.fragmentAll statements).finish = .ok result := by
    rintro ⟨result, hresult⟩
    rw [hfinish] at hresult
    cases hresult
  refine ⟨declarationHead_addsTokens, hfailed,
    (hkept [lost] loop [nested, .returnVoid] rfl).2 hfailed rfl, hbad, ?_⟩
  obtain ⟨front, t, back, block, hsplit, -, hinnermost, hlater, herror⟩ := hopen hbad
  refine ⟨front, t, back, block, hsplit, hinnermost, hlater, herror, ?_⟩
  have hsame := herror.symm.trans hfinish
  injection hsame with hsame
  injection hsame with hsame
  injection hsame

end JavaFragments
