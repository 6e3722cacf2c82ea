import JavaFragments.Proofs.Yields

/-! # Renumbering groups

What a layout yields from a later group number on are the same fragments with all numbers moved up
by the difference. For the rest of a group, the number of that group moves as well. So a layout has
one yield from each number on. -/
set_option autoImplicit false

namespace JavaFragments

namespace Fragment

def renumber (change : Group → Group) : Fragment → Fragment
  | .startBlock kind group => .startBlock kind (change group)
  | .endBlock kind group => .endBlock kind (change group)
  | .tokens ts => .tokens ts
  | .spacer kind => .spacer kind

theorem renumber_renumber (first second : Group → Group) (fragment : Fragment) :
    (fragment.renumber first).renumber second = fragment.renumber (second ∘ first) := by
  cases fragment <;> rfl

theorem group?_renumber (change : Group → Group) (fragment : Fragment) :
    (fragment.renumber change).group? = fragment.group?.map change := by
  cases fragment <;> rfl

end Fragment

def renumbered (offset : Nat) (fragments : List Fragment) : List Fragment :=
  fragments.map (Fragment.renumber (· + offset))

/-- Prints fragments of tokens, which carry no group number. -/
def DeclarationPrinter.PrintsTokens (printer : DeclarationPrinter) : Prop :=
  ∀ declaration env, ∃ run : List (List Token),
    printer declaration env = run.map Fragment.tokens

theorem declarationHead_printsTokens : declarationHead.PrintsTokens :=
  fun _ _ => ⟨[_], rfl⟩

theorem renumbered_of_printsTokens {printer : DeclarationPrinter} (h : printer.PrintsTokens)
    (offset : Nat) (declaration : TypeDeclaration) (env : Environment) :
    renumbered offset (printer declaration env) = printer declaration env := by
  obtain ⟨run, hrun⟩ := h declaration env
  rw [hrun, renumbered, List.map_map]
  rfl

section Numbers
variable {offset : Nat} {front back : List Fragment} {kind : BlockKind} {group : Group}

@[simp] theorem renumbered_nil : renumbered offset [] = [] := rfl

@[simp] theorem renumbered_tokens (ts : List Token) :
    renumbered offset (.tokens ts :: back) = .tokens ts :: renumbered offset back := rfl

@[simp] theorem renumbered_startBlock :
    renumbered offset (.startBlock kind group :: back) =
      .startBlock kind (group + offset) :: renumbered offset back := rfl

@[simp] theorem renumbered_append :
    renumbered offset (front ++ back) = renumbered offset front ++ renumbered offset back :=
  List.map_append

@[simp] theorem renumbered_bracketed :
    renumbered offset (bracketed kind group front back) =
      bracketed kind (group + offset) (renumbered offset front) (renumbered offset back) := by
  simp [renumbered, bracketed, Fragment.renumber]

theorem isEmpty_renumbered : (renumbered offset front).isEmpty = front.isEmpty :=
  List.isEmpty_map

theorem loopKind_renumbered : loopKind (renumbered offset front) = loopKind front := by
  rw [loopKind, renumbered, List.length_map, loopKind]

end Numbers

theorem number_add {low low' : Group} {offset : Nat} (h : low' = low + offset) :
    low' + 1 = low + 1 + offset := by
  rw [h, Nat.add_right_comm]

/-- From a later number on a layout yields the same, with all numbers moved. -/
theorem Layout.Yields.moved {env : Environment} {printer : DeclarationPrinter}
    (hprinter : printer.PrintsTokens) {offset : Nat} {scope : Scope} {layout : Layout scope}
    {outer outer' : Option Group} {low low' high high' : Group} {run run' : List Fragment}
    {mentioned mentioned' : List ClassType} {failure failure' : Option FragmentationError}
    (h : layout.Yields env printer.writer outer low run mentioned high failure)
    (h' : layout.Yields env printer.writer outer' low' run' mentioned' high' failure')
    (houter : outer' = outer.map (· + offset)) (hlow : low' = low + offset) :
    run' = renumbered offset run ∧ mentioned' = mentioned ∧ high' = high + offset ∧
      failure' = failure := by
  induction h generalizing outer' low' run' mentioned' high' failure' with
  | nothing | said | spacer | reported =>
      cases h'
      exact ⟨rfl, rfl, hlow, rfl⟩
  | declared declaration hrun =>
      cases h' with
      | declared _ hrun' =>
          rw [printer.run_eq hrun, printer.run_eq hrun', renumbered_append,
            renumbered_of_printsTokens hprinter]
          exact ⟨rfl, rfl, hlow, rfl⟩
  | part _ ih =>
      cases h' with
      | part hpart => exact ih hpart houter hlow
  | both _ _ ihFirst ihSecond =>
      cases h' with
      | both hfirst hsecond =>
          obtain ⟨rfl, rfl, rfl, -⟩ := ihFirst hfirst rfl hlow
          obtain ⟨rfl, rfl, rfl, rfl⟩ := ihSecond hsecond rfl rfl
          exact ⟨renumbered_append.symm, rfl, rfl, rfl⟩
      | stopped hfirst => cases (ihFirst hfirst rfl hlow).2.2.2
  | stopped _ ih =>
      cases h' with
      | both hfirst hsecond => cases (ih hfirst rfl hlow).2.2.2
      | stopped hfirst => exact ih hfirst rfl hlow
  | emptyLoop _ ih =>
      cases h' with
      | emptyLoop hbody =>
          obtain ⟨-, rfl, rfl, -⟩ := ih hbody rfl hlow
          exact ⟨rfl, rfl, rfl, rfl⟩
      | loop hbody hinner => exact absurd (ih hbody rfl hlow).1 hinner
      | failedLoop hbody => cases (ih hbody rfl hlow).2.2.2
  | @loop _ _ _ high _ _ _ hinner ih =>
      cases h' with
      | emptyLoop hbody =>
          obtain ⟨hempty, -⟩ := ih hbody rfl hlow
          exact absurd (List.map_eq_nil_iff.1 hempty.symm) hinner
      | loop hbody _ =>
          obtain ⟨rfl, rfl, rfl, -⟩ := ih hbody rfl hlow
          rw [loopKind_renumbered]
          exact ⟨by simp, rfl, Nat.add_right_comm .., rfl⟩
      | failedLoop hbody => cases (ih hbody rfl hlow).2.2.2
  | failedLoop _ ih =>
      cases h' with
      | emptyLoop hbody | loop hbody => cases (ih hbody rfl hlow).2.2.2
      | failedLoop hbody =>
          obtain ⟨-, rfl, rfl, hfailed⟩ := ih hbody rfl hlow
          exact ⟨rfl, rfl, rfl, hfailed⟩
  | block _ _ ihBody ihRest =>
      cases h' with
      | block hbody hrest =>
          obtain ⟨rfl, rfl, rfl, -⟩ := ihBody hbody rfl (number_add hlow)
          obtain ⟨rfl, rfl, rfl, rfl⟩ := ihRest hrest (congrArg some hlow) rfl
          rw [hlow]
          exact ⟨by simp, rfl, rfl, rfl⟩
      | failedBlock hbody => cases (ihBody hbody rfl (number_add hlow)).2.2.2
  | failedBlock _ ih =>
      cases h' with
      | block hbody => cases (ih hbody rfl (number_add hlow)).2.2.2
      | failedBlock hbody =>
          obtain ⟨rfl, rfl, rfl, hfailed⟩ := ih hbody rfl (number_add hlow)
          rw [hlow]
          exact ⟨by simp, rfl, rfl, hfailed⟩
  | attempt _ hkept _ ihBody ihRest =>
      cases h' with
      | attempt hbody _ hrest =>
          obtain ⟨rfl, rfl, rfl, -⟩ := ihBody hbody rfl (number_add hlow)
          obtain ⟨rfl, rfl, rfl, rfl⟩ := ihRest hrest (congrArg some hlow) rfl
          rw [hlow]
          exact ⟨by simp, rfl, rfl, rfl⟩
      | emptyAttempt hbody =>
          obtain ⟨hempty, -⟩ := ihBody hbody rfl (number_add hlow)
          rw [List.map_eq_nil_iff.1 hempty.symm] at hkept
          cases hkept
      | failedAttempt hbody => cases (ihBody hbody rfl (number_add hlow)).2.2.2
  | emptyAttempt _ ih =>
      cases h' with
      | attempt hbody hkept =>
          rw [(ih hbody rfl (number_add hlow)).1] at hkept
          cases hkept
      | emptyAttempt hbody =>
          obtain ⟨-, rfl, rfl, -⟩ := ih hbody rfl (number_add hlow)
          exact ⟨rfl, rfl, rfl, rfl⟩
      | failedAttempt hbody => cases (ih hbody rfl (number_add hlow)).2.2.2
  | failedAttempt _ ih =>
      cases h' with
      | attempt hbody | emptyAttempt hbody => cases (ih hbody rfl (number_add hlow)).2.2.2
      | failedAttempt hbody =>
          obtain ⟨rfl, rfl, rfl, hfailed⟩ := ih hbody rfl (number_add hlow)
          rw [hlow]
          exact ⟨by simp, rfl, rfl, hfailed⟩
  | noResources =>
      cases h'
      exact ⟨rfl, rfl, hlow, rfl⟩
  | done =>
      cases h'
      exact ⟨rfl, rfl, hlow, rfl⟩
  | clause _ hkept _ ihBody ihRest =>
      cases h' with
      | clause hbody _ hrest =>
          obtain ⟨rfl, rfl, rfl, -⟩ := ihBody hbody rfl hlow
          obtain ⟨rfl, rfl, rfl, rfl⟩ := ihRest hrest houter rfl
          obtain rfl := Option.some.inj houter
          exact ⟨by simp, rfl, rfl, rfl⟩
      | emptyClause hhead hbody =>
          obtain ⟨hempty, -⟩ := ihBody hbody rfl hlow
          rw [List.map_eq_nil_iff.1 hempty.symm, hhead] at hkept
          cases hkept
      | failedClause hbody => cases (ihBody hbody rfl hlow).2.2.2
  | emptyClause hhead _ ih =>
      cases h' with
      | clause hbody hkept =>
          rw [(ih hbody rfl hlow).1, hhead] at hkept
          cases hkept
      | emptyClause _ hbody =>
          obtain ⟨-, rfl, rfl, -⟩ := ih hbody rfl hlow
          exact ⟨rfl, rfl, rfl, rfl⟩
      | failedClause hbody => cases (ih hbody rfl hlow).2.2.2
  | failedClause _ ih =>
      cases h' with
      | clause hbody | emptyClause _ hbody => cases (ih hbody rfl hlow).2.2.2
      | failedClause hbody =>
          obtain ⟨rfl, rfl, rfl, hfailed⟩ := ih hbody rfl hlow
          obtain rfl := Option.some.inj houter
          exact ⟨by simp, rfl, rfl, hfailed⟩
  | branch _ ih =>
      cases h' with
      | branch hbranch => exact ih hbranch houter hlow

end JavaFragments
