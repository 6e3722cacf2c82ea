import JavaFragments.Proofs.BlockLanguage
import JavaFragments.Proofs.Grouped

/-! # Matching ends

In a balanced run each start has one matching end, so a block that stands in a row of balanced runs
stands in one of them. A fragment is on the own level of a run if every block that starts in front
of it ends in front of it. -/
set_option autoImplicit false

namespace JavaFragments

/-- The block with this inside stands in the run. -/
def HasBlock (kind : BlockKind) (group : Group) (inside run : List Fragment) : Prop :=
  ∃ front back, run = front ++ bracketed kind group inside back

def OnOwnLevel (fragment : Fragment) (run : List Fragment) : Prop :=
  ∃ front back, run = front ++ fragment :: back ∧ Balanced front

section Ends
variable {front back inside inside' rest rest' : List Fragment} {kind kind' : BlockKind}
  {group group' : Group}

theorem Balanced.not_behind_end (h : Balanced inside) (kind : BlockKind) (group : Group)
    (rest : List Fragment) : ¬ Balanced (inside ++ .endBlock kind group :: rest) := by
  intro hrun
  have hend : endFault? inside.length [] kind group = some (.unexpectedEnd inside.length group) :=
    rfl
  have hfault := balanceFault?_of_endFault (.balanced h) hend rest
  rw [balanceFault?_eq_none hrun] at hfault
  cases hfault

/-- What stands behind a balanced run in a balanced run is balanced. -/
theorem Balanced.of_append (hfront : Balanced front) (h : Balanced (front ++ back)) :
    Balanced back := by
  rcases unclosed_or_endFault back with
    ⟨blocks, hblocks⟩ | ⟨before, kind, group, after, blocks, fault, rfl, hbefore, hfault⟩
  · have hwhole := (Unclosed.balanced hfront).append hblocks
    rw [List.append_nil] at hwhole
    rw [hwhole.unique (.balanced h)] at hblocks
    cases hblocks with
    | balanced hback => exact hback
  · have hwhole := (Unclosed.balanced hfront).append hbefore
    rw [List.append_nil] at hwhole
    cases hend : endFault? (front ++ before).length blocks kind group with
    | none =>
        rw [endFault?_eq_none_iff.2 (endFault?_eq_none_iff.1 hend)] at hfault
        cases hfault
    | some fault' =>
        have hread := balanceFault?_of_endFault hwhole hend after
        rw [List.append_assoc, balanceFault?_eq_none h] at hread
        cases hread

theorem end_unique (h : Balanced inside) (h' : Balanced inside')
    (heq : inside ++ .endBlock kind group :: rest = inside' ++ .endBlock kind' group' :: rest') :
    inside = inside' ∧ kind = kind' ∧ group = group' ∧ rest = rest' := by
  rcases List.append_eq_append_iff.1 heq with ⟨between, hinside', hrest⟩ | ⟨between, hinside, hrest⟩
  · cases between with
    | nil =>
        rw [List.append_nil] at hinside'
        simp only [List.nil_append, List.cons.injEq, Fragment.endBlock.injEq] at hrest
        exact ⟨hinside'.symm, hrest.1.1, hrest.1.2, hrest.2⟩
    | cons fragment between =>
        obtain ⟨rfl, -⟩ := List.cons.inj hrest
        exact absurd (hinside' ▸ h') (h.not_behind_end _ _ _)
  · cases between with
    | nil =>
        rw [List.append_nil] at hinside
        simp only [List.nil_append, List.cons.injEq, Fragment.endBlock.injEq] at hrest
        exact ⟨hinside, hrest.1.1.symm, hrest.1.2.symm, hrest.2.symm⟩
    | cons fragment between =>
        obtain ⟨rfl, -⟩ := List.cons.inj hrest
        exact absurd (hinside ▸ h) (h'.not_behind_end _ _ _)

theorem Balanced.matching_end (h : Balanced (front ++ .startBlock kind group :: rest)) :
    ∃ inside back, rest = inside ++ .endBlock kind group :: back ∧ Balanced inside := by
  generalize hrun : front ++ .startBlock kind group :: rest = run at h
  induction h generalizing front rest with
  | nil => simp at hrun
  | tokens ts _ ih =>
      cases front with
      | nil => cases hrun
      | cons _ front => exact ih (List.cons.inj hrun).2
  | spacer _ _ ih =>
      cases front with
      | nil => cases hrun
      | cons _ front => exact ih (List.cons.inj hrun).2
  | @block k g inner outer hinner _ ihInner ihOuter =>
      cases front with
      | nil =>
          simp only [List.nil_append, List.cons_append, List.cons.injEq,
            Fragment.startBlock.injEq] at hrun
          obtain ⟨⟨rfl, rfl⟩, rfl⟩ := hrun
          exact ⟨inner, outer, rfl, hinner⟩
      | cons _ front =>
          have htail := (List.cons.inj hrun).2
          rcases List.append_eq_append_iff.1 htail with
            ⟨between, hinside, hrest⟩ | ⟨between, hfront, hrest⟩
          · cases between with
            | nil => simp at hrest
            | cons fragment between =>
                obtain ⟨rfl, rfl⟩ := List.cons.inj hrest
                obtain ⟨inside, back, rfl, hbalanced⟩ := ihInner hinside.symm
                exact ⟨inside, back ++ .endBlock k g :: outer, by simp, hbalanced⟩
          · cases between with
            | nil => simp at hrest
            | cons fragment between =>
                obtain ⟨-, hback⟩ := List.cons.inj hrest
                exact ihOuter hback.symm

end Ends

section Blocks
variable {front back inside inner run : List Fragment} {kind kind' : BlockKind}
  {group group' : Group}

/-- A block that starts in a balanced run ends in it. -/
theorem hasBlock_of_start {front' rest : List Fragment} (hrun : Balanced run)
    (hinside : Balanced inside) (hstart : run = front ++ .startBlock kind group :: rest)
    (hend : rest ++ back = inside ++ .endBlock kind' group' :: front') :
    HasBlock kind group inside run := by
  obtain ⟨matched, after, rfl, hmatched⟩ := Balanced.matching_end (hstart ▸ hrun)
  rw [List.append_assoc, List.cons_append] at hend
  obtain ⟨rfl, -⟩ := end_unique hmatched hinside hend
  exact ⟨front, after, hstart⟩

theorem hasBlock_append (hfront : Balanced front) (hinside : Balanced inside) :
    HasBlock kind group inside (front ++ back) ↔
      HasBlock kind group inside front ∨ HasBlock kind group inside back := by
  constructor
  · rintro ⟨before, after, heq⟩
    rcases List.append_eq_append_iff.1 heq with ⟨between, hbefore, hback⟩ | ⟨between, hsplit, hrest⟩
    · exact .inr ⟨between, after, hback⟩
    · cases between with
      | nil => exact .inr ⟨[], after, hrest.symm⟩
      | cons fragment between =>
          obtain ⟨rfl, hend⟩ := List.cons.inj hrest
          exact .inl (hasBlock_of_start hfront hinside hsplit hend.symm)
  · rintro (⟨before, after, rfl⟩ | ⟨before, after, rfl⟩)
    · exact ⟨before, after ++ back, by simp [bracketed]⟩
    · exact ⟨front ++ before, after, by simp⟩

theorem hasBlock_bracketed (hinner : Balanced inner) (hinside : Balanced inside) :
    HasBlock kind group inside (bracketed kind' group' inner []) ↔
      (kind = kind' ∧ group = group' ∧ inside = inner) ∨ HasBlock kind group inside inner := by
  constructor
  · rintro ⟨before, after, heq⟩
    cases before with
    | nil =>
        obtain ⟨hstart, hrest⟩ := List.cons.inj heq
        obtain ⟨rfl, -⟩ := end_unique hinner hinside hrest
        obtain ⟨rfl, rfl⟩ := Fragment.startBlock.inj hstart
        exact .inl ⟨rfl, rfl, rfl⟩
    | cons _ before =>
        have htail := (List.cons.inj heq).2
        rcases List.append_eq_append_iff.1 htail with
          ⟨between, hbefore, hrest⟩ | ⟨between, hsplit, hrest⟩
        · rcases between with _ | ⟨_, _ | ⟨_, _⟩⟩ <;> simp [bracketed] at hrest
        · cases between with
          | nil => simp [bracketed] at hrest
          | cons fragment between =>
              obtain ⟨rfl, hend⟩ := List.cons.inj hrest
              exact .inr (hasBlock_of_start hinner hinside hsplit hend.symm)
  · rintro (⟨rfl, rfl, rfl⟩ | ⟨before, after, rfl⟩)
    · exact ⟨[], [], rfl⟩
    · exact ⟨.startBlock kind' group' :: before, after ++ [.endBlock kind' group'], by
        simp [bracketed]⟩

theorem hasBlock_singleton {fragment : Fragment} : ¬ HasBlock kind group inside [fragment] := by
  rintro ⟨before, after, heq⟩
  rcases before with _ | ⟨_, _ | ⟨_, _⟩⟩ <;> simp [bracketed] at heq

end Blocks

section Levels
variable {front back inner : List Fragment} {fragment : Fragment}

theorem onOwnLevel_append (hfront : Balanced front) :
    OnOwnLevel fragment (front ++ back) ↔ OnOwnLevel fragment front ∨ OnOwnLevel fragment back := by
  constructor
  · rintro ⟨before, after, heq, hbefore⟩
    rcases List.append_eq_append_iff.1 heq with ⟨between, rfl, hback⟩ | ⟨between, hsplit, hrest⟩
    · exact .inr ⟨between, after, hback, hfront.of_append hbefore⟩
    · cases between with
      | nil => exact .inr ⟨[], after, hrest.symm, .nil⟩
      | cons _ between =>
          obtain ⟨rfl, -⟩ := List.cons.inj hrest
          exact .inl ⟨before, between, hsplit, hbefore⟩
  · rintro (⟨before, after, rfl, hbefore⟩ | ⟨before, after, rfl, hbefore⟩)
    · exact ⟨before, after ++ back, by simp, hbefore⟩
    · exact ⟨front ++ before, after, by simp, hfront.append hbefore⟩

/-- Inside a block no spacer is on the own level of the run with the block. -/
theorem not_onOwnLevel_bracketed (hinner : Balanced inner) (kind : BlockKind) (group : Group)
    (spacer : Spacer) : ¬ OnOwnLevel (.spacer spacer) (bracketed kind group inner []) := by
  rintro ⟨before, after, heq, hbefore⟩
  cases before with
  | nil => cases heq
  | cons _ before =>
      rw [bracketed, List.cons_append, List.cons.injEq] at heq
      obtain ⟨rfl, htail⟩ := heq
      have hstart : Balanced ([] ++ .startBlock kind group :: before) := hbefore
      obtain ⟨matched, rest, rfl, hmatched⟩ := hstart.matching_end
      rw [List.append_assoc] at htail
      obtain ⟨-, -, -, hnil⟩ := end_unique hinner hmatched htail
      simp at hnil

end Levels

end JavaFragments
