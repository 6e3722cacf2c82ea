import JavaFragments.Proofs.Balance
import JavaFragments.Proofs.Renumbering

/-! # Independence of the session

What a statement adds to a session depends on the session in one way only: its group numbers begin
where the session stands. The same imports are written and the same number of groups is taken
everywhere. So a sequence of statements adds what its statements add one after another, with a
spacer between each two. -/
set_option autoImplicit false

namespace JavaFragments

namespace Imports

/-- Writes a dotted name for an internal name. -/
def write (imports : Imports) (entry : String × String) : Imports :=
  ⟨insertEntry entry.1 entry.2 imports.entries, ascending_insertEntry _ _ imports.ascending⟩

def writeAll (imports : Imports) (entries : List (String × String)) : Imports :=
  entries.foldl write imports

/-- The entries that the types call for in an environment, in the order of the types. -/
def entriesOf (types : List ClassType) (env : Environment) : List (String × String) :=
  (types.filter fun t => !isVisible t env).map fun t => (t.internalName, t.qualifiedName)

theorem insertAll_eq_writeAll (imports : Imports) (types : List ClassType) (env : Environment) :
    imports.insertAll types env = imports.writeAll (entriesOf types env) := by
  induction types generalizing imports with
  | nil => rfl
  | cons t rest ih =>
      have hcons : imports.insertAll (t :: rest) env = (imports.insert t env).insertAll rest env :=
        rfl
      rw [hcons, ih]
      by_cases hvisible : isVisible t env = true
      · simp [insert, entriesOf, hvisible]
      · simp [insert, entriesOf, hvisible, writeAll, write]

end Imports

section Numbers

theorem le_of_mem_renumbered {offset : Nat} {fragments : List Fragment} {fragment : Fragment}
    {group : Group} (hmem : fragment ∈ renumbered offset fragments)
    (hgroup : fragment.group? = some group) : offset ≤ group := by
  obtain ⟨before, -, rfl⟩ := List.mem_map.1 hmem
  rw [Fragment.group?_renumber, Option.map_eq_some_iff] at hgroup
  obtain ⟨g, -, rfl⟩ := hgroup
  exact Nat.le_add_left offset g

/-- Moved from one number to another. -/
theorem renumbered_eq_map (next next' : Group) (fragments : List Fragment) :
    renumbered next' fragments =
      (renumbered next fragments).map (Fragment.renumber fun g => g + next' - next) := by
  rw [renumbered, renumbered, List.map_map]
  refine List.map_congr_left fun fragment _ => ?_
  rw [Function.comp_apply, Fragment.renumber_renumber]
  congr 1
  funext g
  rw [Function.comp_apply, Nat.add_right_comm, Nat.add_sub_cancel]

theorem renumbered_zero (fragments : List Fragment) : renumbered 0 fragments = fragments := by
  have hzero : ∀ fragment : Fragment, fragment.renumber (· + 0) = fragment := by
    intro fragment
    cases fragment <;> rfl
  rw [renumbered, funext hzero, List.map_id']

end Numbers

namespace Session

/-- What each of the statements adds, one after another. -/
def runs (s : Session) : List Statement → List (List Fragment)
  | [] => []
  | t :: rest => s.addedBy t :: (s.fragment t).1.runs rest

/-- The statements succeed one after another. -/
def AllSucceed (s : Session) : List Statement → Prop
  | [] => True
  | t :: rest => (s.fragment t).2 = none ∧ (s.fragment t).1.AllSucceed rest

variable {printer : DeclarationPrinter}

/-- What a statement does is the same in every session of an environment, but for the number that
its groups begin with. -/
theorem exists_effect (hprinter : printer.PrintsTokens) (env : Environment) (t : Statement) :
    ∃ run mentioned used failure, ∀ s : Session, s.environment = env →
      s.writer = printer.writer →
        (s.fragment t).2 = failure ∧
        (s.fragment t).1.fragments = s.fragments ++ renumbered s.sequence.allocated run ∧
        (s.fragment t).1.sequence.allocated = s.sequence.allocated + used ∧
        (s.fragment t).1.imports = s.imports.insertAll mentioned env := by
  let first := (Session.start env printer).fragment t
  obtain ⟨run, mentioned, hyields, -⟩ :=
    (Session.start env printer).fragment_yields printer.writer_appends t
  refine ⟨run, mentioned, first.1.sequence.allocated, first.2, fun s henv hwriter => ?_⟩
  obtain ⟨run', mentioned', hyields', hfragments, himports⟩ :=
    s.fragment_yields (by rw [hwriter]; exact printer.writer_appends) t
  rw [hwriter, henv] at hyields'
  obtain ⟨rfl, rfl, hnext, hfailure⟩ := hyields.moved hprinter hyields' rfl (Nat.zero_add _).symm
  rw [henv] at himports
  exact ⟨hfailure, hfragments, hnext.trans (Nat.add_comm ..), himports⟩

/-- Spaced statements that succeed yield what each of them adds, and the session behind all of them
stands where the yield ends. -/
theorem spaced_yields {s : Session} (hwriter : s.writer.Appends) {statements : List Statement}
    (h : s.AllSucceed statements) :
    ∃ mentioned,
      (Layout.spaced .betweenStatements (statements.map .part)).Yields s.environment s.writer none
        s.sequence.allocated ((s.runs statements).intersperse [.spacer .betweenStatements]).flatten
        mentioned (s.fragmentAll statements).sequence.allocated none ∧
      (s.fragmentAll statements).imports = s.imports.insertAll mentioned s.environment ∧
      (s.fragmentAll statements).fragments = s.fragments ++ (s.runs statements).flatten := by
  induction statements generalizing s with
  | nil => exact ⟨[], .nothing, rfl, (List.append_nil _).symm⟩
  | cons t rest ih =>
      obtain ⟨ht, hrest⟩ := h
      obtain ⟨run, mentioned, hyields, hadded, himports⟩ := s.fragment_yields hwriter t
      have hrun : s.addedBy t = run := addedBy_eq hadded
      obtain ⟨mentioned', hyields', himports', hflat⟩ := ih (s := (s.fragment t).1) hwriter hrest
      have hall : s.fragmentAll (t :: rest) = (s.fragment t).1.fragmentAll rest := rfl
      have himported : (s.fragmentAll (t :: rest)).imports =
          s.imports.insertAll (mentioned ++ mentioned') s.environment := by
        rw [hall, himports', himports, Imports.insertAll_append]
        rfl
      have hflat' : (s.fragmentAll (t :: rest)).fragments =
          s.fragments ++ (s.runs (t :: rest)).flatten := by
        rw [hall, hflat, hadded, runs, hrun, List.flatten_cons, List.append_assoc]
      rw [ht] at hyields
      cases rest with
      | nil =>
          have hruns : ((s.runs [t]).intersperse [.spacer .betweenStatements]).flatten = run := by
            simp [runs, hrun]
          rw [hruns]
          exact ⟨mentioned, .part hyields, himports, hflat'⟩
      | cons u rest =>
          have hruns : ((s.runs (t :: u :: rest)).intersperse
              [.spacer .betweenStatements]).flatten =
              run ++ ([.spacer .betweenStatements] ++
                (((s.fragment t).1.runs (u :: rest)).intersperse
                  [.spacer .betweenStatements]).flatten) := by
            rw [runs, hrun, runs, List.intersperse_cons_cons, List.flatten_cons,
              List.flatten_cons]
          rw [hruns]
          exact ⟨_, .both (.part hyields) (.both (.spacer _) hyields'), himported, hflat'⟩

end Session

/-- A statement does the same in every session of its environment, with its group numbers moved to
where the session stands. Statements that all succeed build together, as one sequence, what they
build one after another, with a spacer between each two. -/
theorem fragment_independent_of_session {printer : DeclarationPrinter}
    (hprinter : printer.PrintsTokens) :
    (∀ (s s' : Session) (t : Statement), s.writer = printer.writer →
      s'.writer = printer.writer → s'.environment = s.environment →
      (s'.fragment t).2 = (s.fragment t).2 ∧
        (∃ run, (s.fragment t).1.fragments = s.fragments ++ run ∧
          (∀ fragment ∈ run, ∀ group, fragment.group? = some group →
            s.sequence.allocated ≤ group) ∧
          (s'.fragment t).1.fragments = s'.fragments ++ run.map
            (Fragment.renumber fun g => g + s'.sequence.allocated - s.sequence.allocated)) ∧
        (∃ used, (s.fragment t).1.sequence.allocated = s.sequence.allocated + used ∧
          (s'.fragment t).1.sequence.allocated = s'.sequence.allocated + used) ∧
        ∃ writes, (s.fragment t).1.imports = s.imports.writeAll writes ∧
          (s'.fragment t).1.imports = s'.imports.writeAll writes) ∧
    ∀ (s : Session) (statements : List Statement), s.writer = printer.writer →
      s.AllSucceed statements →
      (s.fragment (.sequence statements)).2 = none ∧
        (s.fragment (.sequence statements)).1.sequence.allocated =
          (s.fragmentAll statements).sequence.allocated ∧
        (s.fragment (.sequence statements)).1.imports = (s.fragmentAll statements).imports ∧
        (s.fragmentAll statements).fragments = s.fragments ++ (s.runs statements).flatten ∧
        (s.fragment (.sequence statements)).1.fragments = s.fragments ++
          ((s.runs statements).intersperse [.spacer .betweenStatements]).flatten := by
  constructor
  · intro s s' t hwriter hwriter' henv
    obtain ⟨run, mentioned, used, failure, heffect⟩ :=
      Session.exists_effect hprinter s.environment t
    obtain ⟨hfailure, hfragments, hnext, himports⟩ := heffect s rfl hwriter
    obtain ⟨hfailure', hfragments', hnext', himports'⟩ := heffect s' henv hwriter'
    refine ⟨hfailure'.trans hfailure.symm, ⟨_, hfragments, ?_, ?_⟩, ⟨used, hnext, hnext'⟩,
      ⟨Imports.entriesOf mentioned s.environment, ?_, ?_⟩⟩
    · exact fun fragment hmem group hgroup => le_of_mem_renumbered hmem hgroup
    · rw [← renumbered_eq_map]
      exact hfragments'
    · rw [himports, Imports.insertAll_eq_writeAll]
    · rw [himports', Imports.insertAll_eq_writeAll]
  · intro s statements hwriter h
    have happends : s.writer.Appends := by
      rw [hwriter]
      exact printer.writer_appends
    obtain ⟨mentioned, hyields, himports, hflat⟩ := s.spaced_yields happends h
    obtain ⟨run', mentioned', hyields', hfragments, himports'⟩ :=
      s.fragment_yields happends (.sequence statements)
    rw [hwriter] at hyields hyields'
    obtain ⟨rfl, rfl, hnext, hfailure⟩ := hyields.moved hprinter hyields' rfl (Nat.add_zero _).symm
    rw [renumbered_zero] at hfragments
    exact ⟨hfailure, hnext, himports'.trans himports.symm, hflat, hfragments⟩

/-- Behind a `while` over a `return`, and the `while` in one sequence with a `try` that loses its
only block. -/
theorem fragment_independent_of_session_behind_loop :
    let s := Session.start ⟨"Main"⟩ declarationHead
    let loop := Statement.whileLoop .thisReference (some .returnVoid)
    let lock := Statement.tryCatch (some [⟨.ofInternalName "Lock", "l", .thisReference, none⟩])
      (.sequence []) [] none
    declarationHead.PrintsTokens ∧ s.AllSucceed [loop, lock] ∧
      ((s.fragment loop).1.fragment lock).2 = (s.fragment lock).2 ∧
      (s.fragment (.sequence [loop, lock])).2 = none := by
  intro s loop lock
  have hall : s.AllSucceed [loop, lock] := ⟨rfl, rfl, trivial⟩
  have h := fragment_independent_of_session declarationHead_printsTokens
  exact ⟨declarationHead_printsTokens, hall, (h.1 s (s.fragment loop).1 lock rfl rfl rfl).1,
    (h.2 s [loop, lock] rfl hall).1⟩

end JavaFragments
