import JavaFragments.Proofs.Yields

/-! # Statements that hold nothing

A hollow statement is a tower of lists with one element each around an empty list. A statement that
succeeds appends no fragment just if it is hollow, in every draft and for every writer of
declarations that leaves alone what stands in front of a declaration. So the length of the sequence,
which loops and clauses look at, tells them whether their body is hollow. -/
set_option autoImplicit false

namespace JavaFragments

namespace Statement

/-- An empty list with so many lists of one element around it. -/
def tower : Nat → Statement
  | 0 => .sequence []
  | height + 1 => .sequence [tower height]

/-- A tower of any height. -/
def Hollow (s : Statement) : Prop := ∃ height, s = tower height

def isHollow : Statement → Bool
  | .sequence [] => true
  | .sequence [s] => s.isHollow
  | _ => false

theorem isHollow_iff {s : Statement} : s.isHollow = true ↔ s.Hollow := by
  constructor
  · intro h
    induction s using induction_on_parts with
    | step s ih =>
    cases s with
    | sequence statements =>
        rcases statements with _ | ⟨first, _ | ⟨second, rest⟩⟩
        · exact ⟨0, rfl⟩
        · obtain ⟨height, rfl⟩ := ih first (by simp [parts]) h
          exact ⟨height + 1, rfl⟩
        · cases h
    | _ => cases h
  · rintro ⟨height, rfl⟩
    induction height with
    | zero => rfl
    | succ height ih => exact ih

instance (s : Statement) : Decidable s.Hollow :=
  decidable_of_iff _ isHollow_iff

end Statement

namespace Layout

/-- Whether the layout yields no fragment where it succeeds. -/
@[simp] def isSilent : {scope : Scope} → Layout scope → Bool
  | _, .nothing | _, .reported _ | _, .done => true
  | _, .part s => s.isHollow
  | _, .both first second => first.isSilent && second.isSilent
  | _, .said _ | _, .spacer _ | _, .declared _ | _, .loop .. | _, .block .. => false
  | _, .attempt .. | _, .clause .. | _, .branch _ => false

end Layout

namespace Statement

theorem isSilent_layout (s : Statement) : s.layout.isSilent = s.isHollow := by
  cases s with
  | labelled label statement => cases statement <;> rfl
  | sequence statements =>
      rcases statements with _ | ⟨first, _ | ⟨second, rest⟩⟩
      · rfl
      · rfl
      · simp only [layout, List.map_cons, Layout.spaced_cons, Layout.isSilent, Bool.false_and,
          Bool.and_false]
        rfl
  | synchronized monitor body => cases body <;> rfl
  | tryCatch resources => cases resources <;> rfl
  | _ => rfl

theorem isSilent_branchLayout (s : Statement) : s.branchLayout.isSilent = false := by
  unfold branchLayout
  split
  · rfl
  · rfl
  · split <;> rfl
  · rfl

end Statement

/-- What a layout yields is empty just if the layout is silent. -/
theorem Layout.Yields.isEmpty_eq {env : Environment} {writer : DeclarationWriter} {scope : Scope}
    {layout : Layout scope} {outer : Option Group} {low high : Group} {run : List Fragment}
    {mentioned : List ClassType} {failure : Option FragmentationError}
    (h : layout.Yields env writer outer low run mentioned high failure) (hok : failure = none) :
    run.isEmpty = layout.isSilent := by
  induction h with
  | nothing | said | spacer | reported | done => rfl
  | declared => simp [isSilent]
  | @part s _ _ _ _ _ _ ih => rw [ih hok, s.isSilent_layout, isSilent]
  | @both _ _ _ _ _ front back _ _ _ _ _ ihFirst ihSecond =>
      rw [isSilent, ← ihFirst rfl, ← ihSecond hok]
      cases front <;> rfl
  | emptyLoop | loop | block | attempt | emptyAttempt | clause | emptyClause => rfl
  | @branch s _ _ _ _ _ _ _ ih => rw [ih hok, s.isSilent_branchLayout, isSilent]
  | stopped | failedLoop | failedBlock | failedAttempt | noResources | failedClause => cases hok

end JavaFragments
