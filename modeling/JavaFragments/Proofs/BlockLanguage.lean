import JavaFragments.Proofs.Unclosed
import Mathlib.Data.List.Induction
import Mathlib.Tactic.Common

/-! # The language of balanced blocks

`BlockRun` generates the runs of starts and ends in which blocks nest. Reading a sequence finds no
fault just when its starts and ends are such a run. Any other sequence either has a shortest prefix
that nothing can complete, and then the end of a block at its last place is the fault, or every
prefix can be completed and the fault is a block that is never closed. -/
set_option autoImplicit false

namespace JavaFragments

/-- Nothing, or such a run with one more block behind it. -/
inductive BlockRun : List Fragment → Prop where
  | nil : BlockRun []
  | block (kind : BlockKind) (group : Group) {front inside : List Fragment} :
      BlockRun front → BlockRun inside →
        BlockRun (front ++ .startBlock kind group :: (inside ++ [.endBlock kind group]))

/-- The starts and ends, without the tokens and spacers between them. -/
def edges (fragments : List Fragment) : List Fragment :=
  fragments.filter Fragment.isBlockEdge

/-- Something can be written behind the run so that all blocks nest. -/
def Extendable (run : List Fragment) : Prop :=
  ∃ back, BlockRun (edges (run ++ back))

/-- A prefix that nothing completes, though every shorter one can be completed. -/
def FirstDeadPrefix (dead fragments : List Fragment) : Prop :=
  dead <+: fragments ∧ ¬ Extendable dead ∧
    ∀ front, front <+: fragments → ¬ Extendable front → dead.length ≤ front.length

/-- The ends of blocks that stand open, the innermost first. -/
def closers (blocks : List OpenBlock) : List Fragment :=
  blocks.map fun block => .endBlock block.kind block.group

/-- What is wrong with an end of a block behind a run that leaves `blocks` open. -/
def endFault? (index : Nat) (blocks : List OpenBlock) (kind : BlockKind) (group : Group) :
    Option BalanceFault :=
  match blocks with
  | [] => some (.unexpectedEnd index group)
  | block :: _ =>
      if block.group ≠ group then some (.mismatchedEnd index block.group group)
      else if block.kind ≠ kind then some (.mismatchedKind index group block.kind kind)
      else none

section Edges

@[simp] theorem edges_nil : edges [] = [] := rfl

@[simp] theorem edges_append (front back : List Fragment) :
    edges (front ++ back) = edges front ++ edges back :=
  List.filter_append ..

@[simp] theorem edges_tokens (ts : List Token) (rest : List Fragment) :
    edges (.tokens ts :: rest) = edges rest := rfl

@[simp] theorem edges_spacer (kind : Spacer) (rest : List Fragment) :
    edges (.spacer kind :: rest) = edges rest := rfl

@[simp] theorem edges_startBlock (kind : BlockKind) (group : Group) (rest : List Fragment) :
    edges (.startBlock kind group :: rest) = .startBlock kind group :: edges rest := rfl

@[simp] theorem edges_endBlock (kind : BlockKind) (group : Group) (rest : List Fragment) :
    edges (.endBlock kind group :: rest) = .endBlock kind group :: edges rest := rfl

theorem Balanced.edges {run : List Fragment} (h : Balanced run) :
    Balanced (JavaFragments.edges run) := by
  induction h with
  | nil => exact .nil
  | tokens _ _ ih => exact ih
  | spacer _ _ ih => exact ih
  | block kind group _ _ ihInside ihRest =>
      simpa using Balanced.block kind group ihInside ihRest

theorem Unclosed.edges {blocks : List OpenBlock} {run : List Fragment} (h : Unclosed blocks run) :
    Unclosed blocks (JavaFragments.edges run) := by
  induction h with
  | balanced h => exact .balanced h.edges
  | opened block _ hinner ih =>
      simpa using Unclosed.opened block ih hinner.edges

end Edges

section Closing
variable {blocks outer : List OpenBlock} {run : List Fragment}

theorem Unclosed.close {block : OpenBlock} (h : Unclosed (block :: outer) run) :
    Unclosed outer (run ++ [.endBlock block.kind block.group]) := by
  cases h with
  | opened _ houter hinner =>
      rw [List.append_assoc, List.cons_append]
      exact houter.append_balanced (.block block.kind block.group hinner .nil)

theorem Unclosed.closed (h : Unclosed blocks run) : Balanced (run ++ closers blocks) := by
  induction blocks generalizing run with
  | nil =>
      cases h with
      | balanced h => simpa [closers] using h
  | cons block outer ih =>
      have hclosed := ih h.close
      rwa [List.append_assoc] at hclosed

/-- The ends behind a stack close it just when they are the ends of its blocks in order. -/
theorem balanceFaultFrom?_closers (index : Nat) (stack blocks : List OpenBlock) :
    balanceFaultFrom? index stack (closers blocks) = none ↔ stack = blocks := by
  induction blocks generalizing index stack with
  | nil => cases stack <;> simp [closers, balanceFaultFrom?]
  | cons block rest ih =>
      cases stack with
      | nil => simp [closers, balanceFaultFrom?]
      | cons top stack =>
          obtain ⟨topKind, topGroup⟩ := top
          obtain ⟨kind, group⟩ := block
          simp only [closers, List.map_cons, balanceFaultFrom?]
          by_cases hgroup : topGroup = group
          · by_cases hkind : topKind = kind
            · simpa [hgroup, hkind, closers] using ih (index + 1) stack
            · simp [hgroup, hkind]
          · simp [hgroup]

/-- A run leaves only one list of blocks open. -/
theorem Unclosed.unique {blocks' : List OpenBlock} (h : Unclosed blocks run)
    (h' : Unclosed blocks' run) : blocks = blocks' := by
  have hread := balanceFaultFrom?_unclosed h 0 [] (closers blocks')
  rw [balanceFaultFrom?_unclosed h' 0 [] (closers blocks'), List.append_nil,
    List.append_nil] at hread
  have hnone := (balanceFaultFrom?_closers (0 + run.length) blocks' blocks').2 rfl
  exact (balanceFaultFrom?_closers (0 + run.length) blocks blocks').1 (hread ▸ hnone)

end Closing

section Faults

/-- A fault at the end of a block behind a run is the fault of the whole sequence. -/
theorem balanceFault?_of_endFault {blocks : List OpenBlock} {before : List Fragment}
    {kind : BlockKind} {group : Group} {fault : BalanceFault} (h : Unclosed blocks before)
    (hfault : endFault? before.length blocks kind group = some fault) (after : List Fragment) :
    balanceFault? (before ++ .endBlock kind group :: after) = some fault := by
  rw [balanceFault?, balanceFaultFrom?_unclosed h, List.append_nil, Nat.zero_add]
  cases blocks with
  | nil => exact hfault
  | cons block outer =>
      rw [endFault?] at hfault
      rw [balanceFaultFrom?]
      by_cases hgroup : block.group = group
      · rw [if_neg (not_not.2 hgroup)] at hfault ⊢
        by_cases hkind : block.kind = kind
        · rw [if_neg (not_not.2 hkind)] at hfault
          cases hfault
        · rw [if_pos hkind] at hfault ⊢
          exact hfault
      · rw [if_pos hgroup] at hfault ⊢
        exact hfault

theorem endFault?_eq_none_iff {index : Nat} {blocks : List OpenBlock} {kind : BlockKind}
    {group : Group} :
    endFault? index blocks kind group = none ↔ ∃ outer, blocks = ⟨kind, group⟩ :: outer := by
  rcases blocks with _ | ⟨⟨topKind, topGroup⟩, outer⟩
  · simp [endFault?]
  · by_cases hgroup : topGroup = group
    · by_cases hkind : topKind = kind
      · simp [endFault?, hgroup, hkind]
      · simp [endFault?, hgroup, hkind]
    · simp [endFault?, hgroup]

theorem endFault?_ne_unclosed (index : Nat) (blocks : List OpenBlock) (kind : BlockKind)
    (group group' : Group) : endFault? index blocks kind group ≠ some (.unclosed group') := by
  cases blocks with
  | nil => simp [endFault?]
  | cons block outer =>
      rw [endFault?]
      split
      · simp
      · split <;> simp

/-- Read up to its end, or up to an end of a block that is a fault. -/
theorem unclosed_or_endFault (fragments : List Fragment) :
    (∃ blocks, Unclosed blocks fragments) ∨
      ∃ before kind group after blocks fault,
        fragments = before ++ .endBlock kind group :: after ∧ Unclosed blocks before ∧
          endFault? before.length blocks kind group = some fault := by
  induction fragments using List.reverseRecOn with
  | nil => exact .inl ⟨[], .balanced .nil⟩
  | append_singleton front last ih =>
      rcases ih with ⟨blocks, hblocks⟩ | ⟨before, kind, group, after, blocks, fault, rfl, hrest⟩
      · cases last with
        | tokens ts => exact .inl ⟨blocks, hblocks.append_balanced (.tokens ts .nil)⟩
        | spacer kind => exact .inl ⟨blocks, hblocks.append_balanced (.spacer kind .nil)⟩
        | startBlock kind group => exact .inl ⟨_, .opened ⟨kind, group⟩ hblocks .nil⟩
        | endBlock kind group =>
            cases hfault : endFault? front.length blocks kind group with
            | none =>
                obtain ⟨outer, rfl⟩ := endFault?_eq_none_iff.1 hfault
                exact .inl ⟨outer, hblocks.close⟩
            | some fault =>
                exact .inr ⟨front, kind, group, [], blocks, fault, rfl, hblocks, hfault⟩
      · exact .inr ⟨before, kind, group, after ++ [last], blocks, fault, by simp, hrest⟩

end Faults

section Language

theorem BlockRun.append {front back : List Fragment} (hf : BlockRun front) (hb : BlockRun back) :
    BlockRun (front ++ back) := by
  induction hb with
  | nil => rwa [List.append_nil]
  | block kind group _ hinside ih _ =>
      rw [← List.append_assoc]
      exact .block kind group ih hinside

theorem BlockRun.balanced {run : List Fragment} (h : BlockRun run) : Balanced run := by
  induction h with
  | nil => exact .nil
  | block kind group _ _ ihFront ihInside =>
      exact ihFront.append (.block kind group ihInside .nil)

theorem Balanced.blockRun {run : List Fragment} (h : Balanced run) :
    BlockRun (JavaFragments.edges run) := by
  induction h with
  | nil => exact .nil
  | tokens _ _ ih => exact ih
  | spacer _ _ ih => exact ih
  | block kind group _ _ ihInside ihRest =>
      simpa using (BlockRun.block kind group .nil ihInside).append ihRest

theorem not_blockRun_of_endFault {blocks : List OpenBlock} {before : List Fragment}
    {kind : BlockKind} {group : Group} {fault : BalanceFault} (h : Unclosed blocks before)
    (hfault : endFault? before.length blocks kind group = some fault) (after : List Fragment) :
    ¬ BlockRun (edges (before ++ .endBlock kind group :: after)) := by
  intro hrun
  obtain ⟨fault', hfault'⟩ : ∃ fault', endFault? (edges before).length blocks kind group =
      some fault' := by
    refine Option.ne_none_iff_exists'.1 fun hnone => ?_
    rw [endFault?_eq_none_iff.2 (endFault?_eq_none_iff.1 hnone)] at hfault
    cases hfault
  have hread := balanceFault?_of_endFault h.edges hfault' (edges after)
  rw [edges_append, edges_endBlock] at hrun
  rw [balanceFault?_eq_none hrun.balanced] at hread
  cases hread

/-- Without its tokens and spacers a balanced run is a run of blocks, and only then. -/
theorem balanced_iff_blockRun (fragments : List Fragment) :
    Balanced fragments ↔ BlockRun (edges fragments) := by
  refine ⟨Balanced.blockRun, fun hrun => ?_⟩
  rcases unclosed_or_endFault fragments with
    ⟨blocks, hblocks⟩ | ⟨before, kind, group, after, blocks, fault, rfl, hbefore, hfault⟩
  · have hnil := hblocks.edges.unique (.balanced hrun.balanced)
    rw [hnil] at hblocks
    cases hblocks with
    | balanced h => exact h
  · exact absurd hrun (not_blockRun_of_endFault hbefore hfault after)

theorem Unclosed.extendable {blocks : List OpenBlock} {run : List Fragment}
    (h : Unclosed blocks run) : Extendable run :=
  ⟨closers blocks, h.closed.blockRun⟩

theorem Extendable.of_append {front back : List Fragment} (h : Extendable (front ++ back)) :
    Extendable front := by
  obtain ⟨rest, hrest⟩ := h
  exact ⟨back ++ rest, by rwa [← List.append_assoc]⟩

theorem extendable_iff (run : List Fragment) :
    Extendable run ↔ ∃ blocks, Unclosed blocks run := by
  refine ⟨fun hrun => ?_, fun ⟨_, hblocks⟩ => hblocks.extendable⟩
  rcases unclosed_or_endFault run with
    hblocks | ⟨before, kind, group, after, blocks, fault, rfl, hbefore, hfault⟩
  · exact hblocks
  · obtain ⟨back, hback⟩ := hrun
    rw [List.append_assoc, List.cons_append] at hback
    exact absurd hback (not_blockRun_of_endFault hbefore hfault (after ++ back))

/-- The first prefix that nothing completes ends with the end of a block that is a fault. -/
theorem firstDeadPrefix_of_endFault {blocks : List OpenBlock} {before : List Fragment}
    {kind : BlockKind} {group : Group} {fault : BalanceFault} (h : Unclosed blocks before)
    (hfault : endFault? before.length blocks kind group = some fault) (after : List Fragment) :
    FirstDeadPrefix (before ++ [.endBlock kind group])
      (before ++ .endBlock kind group :: after) := by
  refine ⟨⟨after, by simp⟩, ?_, ?_⟩
  · rintro ⟨back, hback⟩
    rw [List.append_assoc, List.singleton_append] at hback
    exact not_blockRun_of_endFault h hfault back hback
  · intro front hprefix hdead
    by_contra hshort
    rw [List.length_append, List.length_singleton] at hshort
    have hbefore : front <+: before :=
      List.prefix_of_prefix_length_le hprefix (List.prefix_append _ _) (by omega)
    obtain ⟨back, rfl⟩ := hbefore
    exact hdead h.extendable.of_append

end Language

/-- Reading finds no fault just in the language of balanced blocks. Where some prefix cannot be
completed, it reports the end of a block at the last place of the shortest such prefix, and why
that end does not fit the innermost open block. A block that is never closed is what it reports of
all other sequences outside the language. -/
theorem balanceFault?_decides_block_language (fragments : List Fragment) :
    (balanceFault? fragments = none ↔ BlockRun (edges fragments)) ∧
    ((∃ front, front <+: fragments ∧ ¬ Extendable front) →
      ∃ before kind group, FirstDeadPrefix (before ++ [.endBlock kind group]) fragments ∧
        (∃ blocks, Unclosed blocks before) ∧
        (Unclosed [] before →
          balanceFault? fragments = some (.unexpectedEnd before.length group)) ∧
        (∀ block outer, Unclosed (block :: outer) before → block.group ≠ group →
          balanceFault? fragments = some (.mismatchedEnd before.length block.group group)) ∧
        ∀ block outer, Unclosed (block :: outer) before → block.group = group →
          block.kind ≠ kind ∧
            balanceFault? fragments =
              some (.mismatchedKind before.length group block.kind kind)) ∧
    ∀ group, balanceFault? fragments = some (.unclosed group) ↔
      (∀ front, front <+: fragments → Extendable front) ∧ ¬ BlockRun (edges fragments) ∧
        ∃ kind outer, Unclosed (⟨kind, group⟩ :: outer) fragments := by
  rcases unclosed_or_endFault fragments with
    ⟨blocks, hblocks⟩ | ⟨before, kind, group, after, blocks, fault, hsplit, hbefore, hfault⟩
  · have halive : ∀ front, front <+: fragments → Extendable front := by
      rintro front ⟨back, rfl⟩
      exact hblocks.extendable.of_append
    have hread := balanceFault?_unclosed hblocks
    refine ⟨?_, fun ⟨front, hprefix, hdead⟩ => absurd (halive front hprefix) hdead, ?_⟩
    · rw [← balanced_iff_blockRun]
      refine ⟨fun hnone => ?_, balanceFault?_eq_none⟩
      cases hblocks with
      | balanced h => exact h
      | opened block houter hinner =>
          rw [hread] at hnone
          cases hnone
    · intro group
      constructor
      · intro hfault
        cases blocks with
        | nil =>
            rw [hread] at hfault
            cases hfault
        | cons block outer =>
            rw [hread] at hfault
            cases hfault
            refine ⟨halive, fun hrun => ?_, block.kind, outer, hblocks⟩
            have hempty := hblocks.unique (.balanced ((balanced_iff_blockRun _).2 hrun))
            cases hempty
      · rintro ⟨-, -, kind, outer, hopen⟩
        rw [hread, hblocks.unique hopen]
        rfl
  · subst hsplit
    have hread := balanceFault?_of_endFault hbefore hfault after
    have hdead := firstDeadPrefix_of_endFault hbefore hfault after
    refine ⟨?_, fun _ => ⟨before, kind, group, hdead, ⟨blocks, hbefore⟩, ?_, ?_, ?_⟩, ?_⟩
    · rw [hread]
      exact iff_of_false (by simp) (not_blockRun_of_endFault hbefore hfault after)
    · intro hnil
      rw [hbefore.unique hnil] at hfault
      exact hread.trans hfault.symm
    · intro block outer hopen hgroup
      rw [hbefore.unique hopen, endFault?, if_pos hgroup] at hfault
      exact hread.trans hfault.symm
    · intro block outer hopen hgroup
      rw [hbefore.unique hopen, endFault?, if_neg (not_not.2 hgroup)] at hfault
      by_cases hkind : block.kind = kind
      · rw [if_neg (not_not.2 hkind)] at hfault
        cases hfault
      · rw [if_pos hkind] at hfault
        exact ⟨hkind, hread.trans hfault.symm⟩
    · intro group'
      rw [hread]
      constructor
      · intro hunclosed
        obtain rfl : fault = .unclosed group' := Option.some.inj hunclosed
        exact absurd hfault (endFault?_ne_unclosed _ _ _ _ _)
      · rintro ⟨halive, -, -⟩
        exact absurd (halive _ hdead.1) hdead.2.1

/-- There is only one shortest prefix that nothing completes. -/
theorem FirstDeadPrefix.unique {dead dead' fragments : List Fragment}
    (h : FirstDeadPrefix dead fragments) (h' : FirstDeadPrefix dead' fragments) : dead = dead' := by
  have hle := h.2.2 dead' h'.1 h'.2.1
  have hge := h'.2.2 dead h.1 h.2.1
  exact (List.prefix_of_prefix_length_le h.1 h'.1 hle).eq_of_length (Nat.le_antisymm hle hge)

/-- Inside two open blocks, the end of the outer one comes first. -/
theorem balanceFault?_decides_end_of_outer_block :
    let before : List Fragment := [.startBlock .statements 0, .startBlock .doWhile 1]
    let fragments := before ++ [.endBlock .statements 0, .endBlock .doWhile 1]
    (∃ front, front <+: fragments ∧ ¬ Extendable front) ∧
      Unclosed [⟨.doWhile, 1⟩, ⟨.statements, 0⟩] before ∧
      balanceFault? fragments = some (.mismatchedEnd 2 1 0) := by
  intro before fragments
  have hbefore : Unclosed [⟨.doWhile, 1⟩, ⟨.statements, 0⟩] before :=
    .opened ⟨.doWhile, 1⟩ (.opened ⟨.statements, 0⟩ (.balanced .nil) .nil) .nil
  have hdead : FirstDeadPrefix (before ++ [.endBlock .statements 0]) fragments :=
    firstDeadPrefix_of_endFault hbefore rfl [.endBlock .doWhile 1]
  have hfront : ∃ front, front <+: fragments ∧ ¬ Extendable front := ⟨_, hdead.1, hdead.2.1⟩
  obtain ⟨before', kind, group, hfirst, -, -, hother, -⟩ :=
    (balanceFault?_decides_block_language fragments).2.1 hfront
  obtain ⟨rfl, hend⟩ := List.append_inj' (hfirst.unique hdead) rfl
  cases hend
  exact ⟨hfront, hbefore, hother _ _ hbefore (by decide)⟩

end JavaFragments
