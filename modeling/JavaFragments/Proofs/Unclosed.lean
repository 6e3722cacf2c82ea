import JavaFragments.Fragment.Balance

/-! # Runs that leave blocks open

`Unclosed blocks run` says that the run is balanced but for the starts of `blocks`, of which the
innermost stands first. Such runs may stand behind one another, and reading one puts its blocks on
the stack, so the only fault it can have is a block that is never closed. -/
set_option autoImplicit false

namespace JavaFragments

inductive Unclosed : List OpenBlock → List Fragment → Prop where
  | balanced {run : List Fragment} : Balanced run → Unclosed [] run
  | opened (block : OpenBlock) {blocks : List OpenBlock} {outer inner : List Fragment} :
      Unclosed blocks outer → Balanced inner →
        Unclosed (block :: blocks) (outer ++ .startBlock block.kind block.group :: inner)

theorem Unclosed.append_balanced {blocks : List OpenBlock} {front back : List Fragment}
    (hf : Unclosed blocks front) (hb : Balanced back) : Unclosed blocks (front ++ back) := by
  cases hf with
  | balanced hf => exact .balanced (hf.append hb)
  | opened block ho hi =>
      rw [List.append_assoc, List.cons_append]
      exact .opened block ho (hi.append hb)

theorem Unclosed.append {outer inner : List OpenBlock} {front back : List Fragment}
    (hf : Unclosed outer front) (hb : Unclosed inner back) :
    Unclosed (inner ++ outer) (front ++ back) := by
  induction hb with
  | balanced hb => exact hf.append_balanced hb
  | opened block _ hi ih =>
      rw [← List.append_assoc]
      exact .opened block ih hi

theorem Unclosed.start (block : OpenBlock) {blocks : List OpenBlock} {run : List Fragment}
    (h : Unclosed blocks run) :
    Unclosed (blocks ++ [block]) (.startBlock block.kind block.group :: run) := by
  have hs : Unclosed [block] [.startBlock block.kind block.group] :=
    .opened block (.balanced .nil) .nil
  exact hs.append h

theorem balanceFaultFrom?_start (index : Nat) (stack : List OpenBlock) (kind : BlockKind)
    (group : Group) (rest : List Fragment) :
    balanceFaultFrom? index stack (.startBlock kind group :: rest) =
      balanceFaultFrom? (index + 1) (⟨kind, group⟩ :: stack) rest := by
  cases stack <;> rfl

/-- Reading a run puts the blocks it leaves open on the stack. -/
theorem balanceFaultFrom?_unclosed {blocks : List OpenBlock} {run : List Fragment}
    (h : Unclosed blocks run) (index : Nat) (stack : List OpenBlock) (rest : List Fragment) :
    balanceFaultFrom? index stack (run ++ rest) =
      balanceFaultFrom? (index + run.length) (blocks ++ stack) rest := by
  induction h generalizing index stack rest with
  | balanced h => exact balanceFaultFrom?_append h index stack rest
  | opened block _ hi ih =>
      rw [List.append_assoc, ih, List.cons_append, balanceFaultFrom?_start,
        balanceFaultFrom?_append hi]
      simp only [List.length_append, List.length_cons, List.cons_append]
      congr 1
      omega

theorem balanceFault?_unclosed {blocks : List OpenBlock} {run : List Fragment}
    (h : Unclosed blocks run) :
    balanceFault? run = blocks.head?.map fun block => .unclosed block.group := by
  have hread := balanceFaultFrom?_unclosed h 0 [] []
  rw [List.append_nil, List.append_nil] at hread
  rw [balanceFault?, hread]
  cases blocks <;> rfl

end JavaFragments
